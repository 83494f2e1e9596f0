import ShellDoc.Format
import ShellDoc.Proofs.FileTree.Entry
import ShellDoc.Proofs.Text
import ShellDoc.Source

/-!
# Sources and outputs

Whether a file is a shell source depends on its name alone (`isShellSource_eq`), and no output has
such a name (`isSourceName_outputFile`). The name of an output is made of characters of its source's
path, and is always one that an entry of a directory may have (`isEntryName_outputFile`). That of an
output for a source is never empty and never starts with a dot (`isVisible_outputName`).
-/

namespace ShellDoc

namespace Source

/-! ## Names -/

/-- Whether a name is that of a shell source. -/
def isSourceName (name : Text) : Bool :=
  ((Path.splitLastDot? name).any fun (stem, extension) =>
    decide (stem ≠ []) && extensions.contains extension) || startFiles.contains name

theorem isShellSource_eq (p : Path) : isShellSource p = p.fileName?.any isSourceName := by
  rw [isShellSource, Path.extension?]
  cases p.fileName? with
  | none => rfl
  | some name =>
    show (((Path.splitLastDot? name).bind fun parts =>
      guard (parts.1 ≠ []) >>= fun _ => some parts.2).any extensions.contains ||
        startFiles.contains name) = isSourceName name
    rw [isSourceName]
    congr 1
    cases Path.splitLastDot? name with
    | none => rfl
    | some parts =>
      by_cases hstem : parts.1 = []
      · simp only [hstem, ne_eq, not_true_eq_false, guard, ↓reduceIte, decide_false,
          Bool.false_and, Option.any_some, Option.bind_some]
        rfl
      · simp [hstem, guard]

theorem exists_of_isShellSource {p : Path} (h : isShellSource p = true) :
    ∃ name, p.fileName? = some name ∧ isSourceName name = true := by
  rw [isShellSource_eq] at h
  cases hname : p.fileName? with
  | none =>
    rw [hname] at h
    cases h
  | some name =>
    rw [hname] at h
    exact ⟨name, rfl, h⟩

/-- The name of the output file for a source. -/
def outputFile (format : Format) (p : Path) : Text :=
  outputName p ++ '.' :: format.extension

theorem splitLastDot?_append {name extension : Text} (h : '.' ∉ extension) :
    Path.splitLastDot? (name ++ '.' :: extension) = some (name, extension) := by
  have hrest : ∀ c ∈ extension.reverse, (c != '.') = true := by
    intro c hc
    rw [bne_iff_ne]
    rintro rfl
    exact h (List.mem_reverse.mp hc)
  have hreverse : (name ++ '.' :: extension).reverse =
      extension.reverse ++ '.' :: name.reverse := by simp
  have hdot : ∀ c ∈ ('.' :: name.reverse).head?, (c != '.') = false := by
    rintro c hc
    cases hc
    rfl
  rw [Path.splitLastDot?, hreverse, Text.dropWhile_append hrest hdot,
    Text.takeWhile_append hrest hdot]
  simp only [List.reverse_reverse]

/-- A name is no source if neither shell scripts nor start files have its extension. -/
theorem isSourceName_append {extension : Text} (hdot : '.' ∉ extension)
    (hextension : extension ∉ extensions)
    (hends : ∀ name ∈ startFiles, (Path.splitLastDot? name).map Prod.snd ≠ some extension)
    (stem : Text) : isSourceName (stem ++ '.' :: extension) = false := by
  have hstart : startFiles.contains (stem ++ '.' :: extension) = false := by
    by_contra h
    have hmem : stem ++ '.' :: extension ∈ startFiles := by simpa using h
    exact hends _ hmem (by rw [splitLastDot?_append hdot]; rfl)
  rw [isSourceName, hstart, splitLastDot?_append hdot]
  simp [hextension]

theorem isSourceName_append_extension (format : Format) (stem : Text) :
    isSourceName (stem ++ '.' :: format.extension) = false := by
  refine isSourceName_append ?_ ?_ ?_ stem
  all_goals cases format <;> decide

/-- No output is a source: neither extension is one of a shell script or ends a start file's
name. -/
theorem isSourceName_outputFile (format : Format) (p : Path) :
    isSourceName (outputFile format p) = false :=
  isSourceName_append_extension format (outputName p)

theorem eq_of_splitLastDot? {name stem extension : Text}
    (h : Path.splitLastDot? name = some (stem, extension)) : name = stem ++ '.' :: extension := by
  have hparts := List.takeWhile_append_dropWhile (p := (· != '.')) (l := name.reverse)
  rw [Path.splitLastDot?] at h
  split at h
  next => cases h
  next dot before hdrop =>
    cases h
    have hdot : dot = '.' := by
      have hstop := List.head?_dropWhile_not (· != '.') name.reverse
      rw [hdrop] at hstop
      simpa using hstop
    rw [hdrop, hdot] at hparts
    calc name
      _ = (name.reverse.takeWhile (· != '.') ++ '.' :: before).reverse := by
        rw [hparts, List.reverse_reverse]
      _ = before.reverse ++ '.' :: (name.reverse.takeWhile (· != '.')).reverse := by
        rw [List.reverse_append, List.reverse_cons, List.append_assoc, List.singleton_append]

/-- What stands in the name of an output stands in the path of its source, and is no slash. -/
theorem mem_outputName {c : Char} {p : Path} (h : c ∈ outputName p) : c ∈ p.text ∧ c ≠ '/' := by
  have hname : c ∈ p.fileName?.getD [] := by
    rw [outputName] at h
    refine (List.dropWhile_sublist (· == '.')).subset ?_
    split at h
    next hsplit =>
      split at h
      · rw [eq_of_splitLastDot? hsplit]
        exact List.mem_append_left _ h
      · exact h
    next => exact h
  cases hfile : p.fileName? with
  | none =>
    rw [hfile] at hname
    cases hname
  | some name =>
    rw [hfile] at hname
    have hsegment := Path.mem_segments_of_fileName? hfile
    refine ⟨Text.subset_of_mem_splitOn '/' p.text name hsegment hname, ?_⟩
    rintro rfl
    exact Text.not_mem_of_mem_splitOn '/' p.text name hsegment hname

theorem isEntryName_outputFile (format : Format) (p : Path) :
    FileTree.IsEntryName (outputFile format p) := by
  have hlength : 3 ≤ (outputFile format p).length := by
    have hextension : 2 ≤ format.extension.length := by
      cases format <;> decide
    rw [outputFile, List.length_append, List.length_cons]
    omega
  refine ⟨?_, ?_, ?_, ?_⟩
  · rw [outputFile, List.mem_append, not_or]
    refine ⟨fun h => (mem_outputName h).2 rfl, ?_⟩
    cases format <;> decide
  all_goals
    intro h
    rw [h] at hlength
    revert hlength
    decide

/-! ## Visible names -/

/-- Whether a listing shows a name without being asked for all: there is one, and it does not start
with a dot. -/
structure IsVisible (name : Text) : Prop where
  ne_nil : name ≠ []
  noDot : name.head? ≠ some '.'

/-- A beginning of a visible name is visible, if there is one. -/
theorem IsVisible.of_isPrefix {name beginning : Text} (h : IsVisible name)
    (hbeginning : beginning <+: name) (hne : beginning ≠ []) : IsVisible beginning := by
  obtain ⟨rest, rfl⟩ := hbeginning
  refine ⟨hne, fun hdot => h.noDot ?_⟩
  rw [List.head?_append_of_ne_nil _ hne, hdot]

theorem IsVisible.append {name : Text} (h : IsVisible name) (rest : Text) :
    IsVisible (name ++ rest) := by
  refine ⟨List.append_ne_nil_of_left_ne_nil h.ne_nil rest, ?_⟩
  rw [List.head?_append_of_ne_nil _ h.ne_nil]
  exact h.noDot

/-- No source is named by dots alone: extensions and the names of start files have letters. -/
theorem exists_ne_dot_of_isSourceName {name : Text} (h : isSourceName name = true) :
    ∃ c ∈ name, c ≠ '.' := by
  have hany : ∀ t ∈ extensions ++ startFiles, t.any (· != '.') = true := by decide
  have hletter : ∀ t ∈ extensions ++ startFiles, ∃ c ∈ t, c ≠ '.' := by
    intro t ht
    obtain ⟨c, hc, hne⟩ := List.any_eq_true.mp (hany t ht)
    exact ⟨c, hc, bne_iff_ne.mp hne⟩
  rw [isSourceName, Bool.or_eq_true, List.contains_iff_mem] at h
  rcases h with hsplit | hstart
  · obtain ⟨⟨stem, extension⟩, hparts, hextension⟩ := (Option.any_eq_true _ _).mp hsplit
    obtain ⟨_, hextension⟩ := Bool.and_eq_true_iff.mp hextension
    obtain ⟨c, hc, hne⟩ :=
      hletter extension (List.mem_append_left _ (List.contains_iff_mem.mp hextension))
    rw [eq_of_splitLastDot? hparts]
    exact ⟨c, List.mem_append_right stem (List.mem_cons_of_mem '.' hc), hne⟩
  · exact hletter name (List.mem_append_right _ hstart)

/-- What is left of a source's name without its leading dots is visible. -/
theorem isVisible_dropWhile {name : Text} (h : isSourceName name = true) :
    IsVisible (name.dropWhile (· == '.')) := by
  obtain ⟨c, hc, hne⟩ := exists_ne_dot_of_isSourceName h
  refine ⟨fun hnil => ?_, fun hdot => ?_⟩
  · exact hne (eq_of_beq (List.dropWhile_eq_nil_iff.mp hnil c hc))
  · have hstop := List.head?_dropWhile_not (· == '.') name
    rw [hdot] at hstop
    cases hstop

/-- The extension goes only if something stands in front of it: the leading dots have gone before, so
none of them is taken for the dot of the extension. -/
theorem isVisible_outputName {p : Path} (h : isShellSource p = true) :
    IsVisible (outputName p) := by
  obtain ⟨name, hname, hsource⟩ := exists_of_isShellSource h
  have hvisible := isVisible_dropWhile hsource
  rw [outputName, hname, Option.getD_some]
  split
  next stem extension hparts =>
    split
    next =>
      have hsplit := eq_of_splitLastDot? hparts
      refine hvisible.of_isPrefix ⟨'.' :: extension, hsplit.symm⟩ ?_
      rintro rfl
      exact hvisible.noDot (by rw [hsplit]; rfl)
    next => exact hvisible
  next => exact hvisible

end Source

end ShellDoc
