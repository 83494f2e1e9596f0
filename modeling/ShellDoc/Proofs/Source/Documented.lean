import ShellDoc.Proofs.Source.Output

/-!
# Documented sources

A source is documented if it can be read and has functions. The trees that arise while outputs are
written have the same sources (`SameSources.set`). A source reads the same in all of them
(`SameSources.functionsIn`), so what is documented does not depend on what has been written before.
Nor does it matter for what may be written (`Written.mayPut`).
-/

namespace ShellDoc

namespace Source

variable {tree before after : FileTree} {marker : Char} {p : Path}

/-- The text of a file, if it is one. -/
def script? (tree : FileTree) (p : Path) : Option Text :=
  match tree.read p with
  | .ok content => decodeUtf8? content
  | .error _ => none

/-- The functions in a file. -/
def functionsIn (tree : FileTree) (marker : Char) (p : Path) : List FunctionDoc :=
  (script? tree p).elim [] (Script.functions marker)

/-- Whether a path leads to a shell source with functions. -/
def isDocumented (tree : FileTree) (marker : Char) (p : Path) : Bool :=
  isShellSource p && decide (functionsIn tree marker p ≠ [])

theorem isShellSource_of_isDocumented (h : isDocumented tree marker p = true) :
    isShellSource p = true :=
  (Bool.and_eq_true_iff.mp h).1

theorem exists_read_of_script? {script : Text} (h : script? tree p = some script) :
    ∃ content, tree.read p = .ok content ∧ decodeUtf8? content = some script := by
  rw [script?] at h
  split at h
  next content hread => exact ⟨content, hread, h⟩
  next => cases h

/-- A documented source is text, and its functions are those of the text. -/
theorem exists_of_isDocumented (h : isDocumented tree marker p = true) :
    ∃ content script, tree.read p = .ok content ∧ decodeUtf8? content = some script ∧
      functionsIn tree marker p = Script.functions marker script := by
  have hne : functionsIn tree marker p ≠ [] := of_decide_eq_true (Bool.and_eq_true_iff.mp h).2
  cases hscript : script? tree p with
  | none =>
    rw [functionsIn, hscript] at hne
    exact absurd rfl hne
  | some script =>
    obtain ⟨content, hread, hdecode⟩ := exists_read_of_script? hscript
    exact ⟨content, script, hread, hdecode, by rw [functionsIn, hscript]; rfl⟩

theorem decodeUtf8?_encodeUtf8 (text : Text) : decodeUtf8? (encodeUtf8 text) = some text := by
  have hvalid : (String.ofList text).toUTF8.IsValidUTF8 := (String.ofList text).isValidUTF8
  rw [decodeUtf8?, encodeUtf8, String.fromUTF8?, dif_pos hvalid, Option.map_some]
  exact congrArg some String.toList_ofList

theorem isDocumented_of_read {script : Text} (hsource : isShellSource p = true)
    (hread : tree.read p = .ok (encodeUtf8 script)) (hne : Script.functions marker script ≠ []) :
    isDocumented tree marker p = true := by
  have hfunctions : functionsIn tree marker p = Script.functions marker script := by
    rw [functionsIn, script?, hread]
    dsimp only
    rw [decodeUtf8?_encodeUtf8]
    rfl
  rw [isDocumented, hsource, hfunctions, Bool.true_and]
  exact decide_eq_true hne

/-- A file is read as text, or it is none. -/
theorem readText_eq (tree : FileTree) (p : Path) :
    (∃ cause, tree.readText p = .error cause ∧ script? tree p = none) ∨
      ∃ script, tree.readText p = .ok script ∧ script? tree p = some script := by
  rw [FileTree.readText, script?]
  cases tree.read p with
  | error cause => exact .inl ⟨cause, rfl, rfl⟩
  | ok content =>
    cases hscript : decodeUtf8? content with
    | none => exact .inl ⟨.notText, by simp [bind, Except.bind, hscript], hscript⟩
    | some script =>
      exact .inr ⟨script, by simp [bind, Except.bind, hscript, pure, Except.pure], hscript⟩

theorem readFunctions_of_isDocumented (h : isDocumented tree marker p = true) :
    readFunctions tree marker p = .ok (functionsIn tree marker p) ∧
      functionsIn tree marker p ≠ [] := by
  obtain ⟨hsource, hne⟩ := Bool.and_eq_true_iff.mp h
  have hne : functionsIn tree marker p ≠ [] := of_decide_eq_true hne
  refine ⟨?_, hne⟩
  rw [readFunctions, if_pos hsource]
  rcases readText_eq tree p with ⟨_, _, hnone⟩ | ⟨script, htext, hsome⟩
  · rw [functionsIn, hnone] at hne
    exact absurd rfl hne
  · rw [htext, functionsIn, hsome]
    rfl

theorem readFunctions_of_not_isDocumented (h : isDocumented tree marker p = false) :
    readFunctions tree marker p = .ok [] ∨
      ∃ reason, readFunctions tree marker p = .error reason := by
  rw [readFunctions]
  split
  next hsource =>
    have hnil : functionsIn tree marker p = [] := by
      rw [isDocumented, hsource, Bool.true_and] at h
      simpa using h
    rcases readText_eq tree p with ⟨cause, htext, _⟩ | ⟨script, htext, hsome⟩
    · rw [htext]
      exact .inr ⟨_, rfl⟩
    · rw [functionsIn, hsome] at hnil
      rw [htext]
      exact .inl (congrArg Except.ok hnil)
  next => exact .inr ⟨_, rfl⟩

/-! ## Trees with the same sources -/

/-- Whether two trees have the same directories and rights, and the same at every location with the
name of a source. -/
structure SameSources (before after : FileTree) : Prop where
  workingDirectory : after.workingDirectory = before.workingDirectory
  denials : after.denials = before.denials
  directory : ∀ location,
    after.node? location = some .directory ↔ before.node? location = some .directory
  source : ∀ parent name, isSourceName name = true →
    after.node? (parent ++ [name]) = before.node? (parent ++ [name])

theorem SameSources.refl (tree : FileTree) : SameSources tree tree :=
  ⟨rfl, rfl, fun _ => .rfl, fun _ _ _ => rfl⟩

theorem SameSources.keepsDirectories (h : SameSources before after) :
    FileTree.KeepsDirectories before after :=
  ⟨h.workingDirectory, h.denials, fun location hdirectory =>
    (h.directory location).mpr hdirectory⟩

/-- Writing a file with another name, where no directory is, leaves the sources alone. -/
theorem SameSources.set (h : SameSources before after) {parent : Location} {name : Text}
    (hname : isSourceName name = false)
    (hnode : before.node? (parent ++ [name]) ≠ some .directory) (content : ByteArray) :
    SameSources before (after.set (parent ++ [name]) (.file content)) := by
  have hne : parent ++ [name] ≠ [] := List.append_ne_nil_of_right_ne_nil _ (List.cons_ne_nil _ _)
  refine ⟨h.workingDirectory, h.denials, fun location => ?_, fun parent' name' hsource => ?_⟩
  · rw [FileTree.node?_set hne]
    split
    next hlocation =>
      subst hlocation
      exact iff_of_false (by simp) hnode
    next => exact h.directory location
  · rw [FileTree.node?_set hne, if_neg, h.source parent' name' hsource]
    intro hlocation
    obtain ⟨_, hnames⟩ := List.append_inj' hlocation rfl
    obtain rfl : name' = name := List.cons.inj hnames |>.1
    rw [hname] at hsource
    cases hsource

/-- A source reads the same in both trees. -/
theorem SameSources.read (h : SameSources before after) (hfile : before.isFile p = true)
    (hsource : isShellSource p = true) : after.read p = before.read p := by
  obtain ⟨name, hname, hsource⟩ := exists_of_isShellSource hsource
  obtain ⟨location, content, hlocate, hnode⟩ := FileTree.isFile_iff.mp hfile
  obtain ⟨parent, rfl⟩ := FileTree.exists_parent_of_fileName? hlocate hnode hname
  have hsame := h.source parent name hsource
  rw [FileTree.read_of_locate hlocate hnode,
    FileTree.read_of_locate (h.keepsDirectories.locate hlocate) (hsame.trans hnode),
    FileTree.allows_congr h.denials]

/-- A source has the same functions in both trees. -/
theorem SameSources.functionsIn (h : SameSources before after) (hfile : before.isFile p = true)
    (hsource : isShellSource p = true) :
    functionsIn after marker p = functionsIn before marker p := by
  rw [Source.functionsIn, Source.functionsIn, script?, script?, h.read hfile hsource]

theorem SameSources.isDocumented (h : SameSources before after) (hfile : before.isFile p = true) :
    isDocumented after marker p = isDocumented before marker p := by
  rw [Source.isDocumented, Source.isDocumented]
  cases hsource : isShellSource p with
  | false => rfl
  | true => rw [h.functionsIn hfile hsource]

/-! ## Trees with more files -/

/-- Whether a tree arose from another by writing files that are no sources where they may be put. -/
structure Written (before after : FileTree) : Prop extends SameSources before after where
  /-- What was there is still there. -/
  kept : ∀ location, before.node? location ≠ none → after.node? location ≠ none
  /-- What is new might have been put there at the start. -/
  allowed : ∀ location, before.node? location = none → after.node? location ≠ none →
    before.mayPut location = true

theorem Written.refl (tree : FileTree) : Written tree tree :=
  ⟨.refl tree, fun _ => id, fun _ hnone hsome => absurd hnone hsome⟩

/-- The same may be put at a location: what a new file needs to be written over it had to have when
it was made. -/
theorem Written.mayPut (h : Written before after) (location : Location) :
    after.mayPut location = before.mayPut location := by
  cases hbefore : before.node? location with
  | some node =>
    have hthere : before.node? location ≠ none := by simp [hbefore]
    rw [FileTree.mayPut_of_node? hthere, FileTree.mayPut_of_node? (h.kept location hthere),
      FileTree.allows_congr h.denials]
  | none =>
    cases hafter : after.node? location with
    | none =>
      exact FileTree.mayPut_congr h.denials (iff_of_true hafter hbefore)
    | some node =>
      have hmay := h.allowed location hbefore (by simp [hafter])
      rw [FileTree.mayPut_of_node? (by simp [hafter]), FileTree.allows_congr h.denials, hmay]
      rw [FileTree.mayPut, Bool.and_eq_true] at hmay
      exact hmay.1

theorem Written.set (h : Written before after) {parent : Location} {name : Text}
    (hname : isSourceName name = false)
    (hnode : before.node? (parent ++ [name]) ≠ some .directory)
    (hput : after.mayPut (parent ++ [name]) = true) (content : ByteArray) :
    Written before (after.set (parent ++ [name]) (.file content)) := by
  have hne : parent ++ [name] ≠ [] := List.append_ne_nil_of_right_ne_nil _ (List.cons_ne_nil _ _)
  refine ⟨h.toSameSources.set hname hnode content, fun location hbefore => ?_,
    fun location hbefore hafter => ?_⟩
  · rw [FileTree.node?_set hne]
    split
    next => exact Option.some_ne_none _
    next => exact h.kept location hbefore
  · rw [FileTree.node?_set hne] at hafter
    split at hafter
    next hlocation => rwa [hlocation, ← h.mayPut]
    next => exact h.allowed location hbefore hafter

end Source

end ShellDoc
