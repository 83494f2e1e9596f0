import ShellDoc.Comment.Section
import ShellDoc.Proofs.Tree

/-!
# Sections in closed form

The reader of sections goes through the lines once and extends the text of the section that is open
as it goes. What it leaves behind can be said without it: each key stands once, where it is first
given, and its value depends on the last line that gives it and on the lines behind that line
(`sections_closed_form`).

The step from the one to the other is `sections_eq_ofList`: a section line gives its key the value
that the section has when it ends, and lines that start no section give nothing.
-/

namespace ShellDoc.Comment

/-- The key of the section that a line starts, if it starts one. -/
def sectionKey? (line : Text) : Option Text :=
  (sectionLine? line).map Prod.fst

/-- The lines up to the next one that starts a section. -/
def continuation (lines : List Text) : List Text :=
  lines.takeWhile fun line => (sectionLine? line).isNone

/-- The value of a section, from the text beside its key and the lines behind its first line. The
parameters are read off all lines behind it. Any other section joins its lines with single spaces,
but for empty lines at the start, and a section without a key has only its first line. -/
def sectionValue (key beside : Text) (behind : List Text) : Value :=
  if key = paramsKey then
    .tree (Parameter.tree 1 behind)
  else
    let continued := if key = [] then [] else continuation behind
    .text (Text.join [' '] ((beside :: continued).dropWhile (· = [])))

/-- The last line that starts a section with a key, as the text beside the key and the lines
behind it. -/
def lastSection? (key : Text) : List Text → Option (Text × List Text)
  | [] => none
  | line :: rest =>
    (lastSection? key rest).or
      ((sectionLine? line).bind fun (k, beside) => if k = key then some (beside, rest) else none)

/-- The sections in the order of their first lines, those with the same key one by one. -/
def sectionMembers : List Text → List (Text × Value)
  | [] => []
  | line :: rest =>
    match sectionLine? line with
    | some (key, beside) => (key, sectionValue key beside rest) :: sectionMembers rest
    | none => sectionMembers rest

/-! ## The text of a section -/

theorem continued_of_ne_nil {text : Text} (h : text ≠ []) (line : Text) :
    continued text line = text ++ ' ' :: line :=
  if_neg h

/-- Lines that continue a text one after another join it with single spaces. -/
theorem foldl_continued_of_ne_nil {text : Text} (h : text ≠ []) (lines : List Text) :
    lines.foldl continued text = Text.join [' '] (text :: lines) := by
  induction lines generalizing text with
  | nil => exact List.intercalate_singleton.symm
  | cons line rest ih =>
    have hnext : text ++ ' ' :: line ≠ [] := List.append_ne_nil_of_left_ne_nil h _
    rw [List.foldl_cons, continued_of_ne_nil h, ih hnext, Text.join, Text.join,
      List.intercalate_cons_cons]
    cases rest with
    | nil => simp only [List.intercalate_singleton, List.append_assoc, List.cons_append,
        List.nil_append]
    | cons next rest => simp only [List.intercalate_cons_cons, List.append_assoc, List.cons_append,
        List.nil_append]

/-- A text that lines continue is their join, but for empty lines at the start. -/
theorem foldl_continued (text : Text) (lines : List Text) :
    lines.foldl continued text = Text.join [' '] ((text :: lines).dropWhile (· = [])) := by
  induction lines generalizing text with
  | nil =>
    by_cases h : text = []
    · subst h
      rfl
    · rw [List.dropWhile_cons_of_neg (by simpa only [decide_eq_true_eq] using h)]
      exact foldl_continued_of_ne_nil h []
  | cons line rest ih =>
    by_cases h : text = []
    · subst h
      rw [List.dropWhile_cons_of_pos (by simp only [decide_true])]
      exact ih line
    · rw [List.dropWhile_cons_of_neg (by simpa only [decide_eq_true_eq] using h)]
      exact foldl_continued_of_ne_nil h (line :: rest)

/-! ## What a pass over the lines inserts -/

theorem textUnder_insert (key text : Text) (metadata : Tree) :
    textUnder key (metadata.insert key (.text text)) = text := by
  rw [textUnder, Tree.find?_insert_self]
  rfl

theorem continuation_cons_of_some {line : Text} {found : Text × Text}
    (h : sectionLine? line = some found) (rest : List Text) : continuation (line :: rest) = [] :=
  List.takeWhile_cons_of_neg (by simp only [h, Option.isNone_some, Bool.false_eq_true,
    not_false_eq_true])

theorem continuation_cons_of_none {line : Text} (h : sectionLine? line = none) (rest : List Text) :
    continuation (line :: rest) = line :: continuation rest :=
  List.takeWhile_cons_of_pos (by simp only [h, Option.isNone_none])

/-- **What the lines insert**, with no section open and with one open that has some text so far. The
two go together in the induction, for a section line of the first kind leaves a section open, and a
line that starts the parameters closes it. -/
theorem readSections_eq_insertAll (lines : List Text) :
    (∀ metadata : Tree,
      readSections metadata none lines = metadata.insertAll (sectionMembers lines)) ∧
    (∀ (metadata : Tree) (key text : Text),
      readSections (metadata.insert key (.text text)) (some key) lines =
        (metadata.insert key (.text ((continuation lines).foldl continued text))).insertAll
          (sectionMembers lines)) := by
  induction lines with
  | nil => exact ⟨fun _ => rfl, fun _ _ _ => rfl⟩
  | cons line rest ih =>
    obtain ⟨ihClosed, ihOpen⟩ := ih
    cases hline : sectionLine? line with
    | none =>
      refine ⟨fun metadata => ?_, fun metadata key text => ?_⟩
      · simp only [readSections, sectionMembers, hline]
        exact ihClosed metadata
      · simp only [readSections, sectionMembers, hline, textUnder_insert, Tree.insert_insert_self,
          continuation_cons_of_none hline, List.foldl_cons]
        exact ihOpen metadata key (continued text line)
    | some found =>
      obtain ⟨key, beside⟩ := found
      have hstep : ∀ (metadata : Tree) (current? : Option Text),
          readSections metadata current? (line :: rest) =
            (metadata.insert key (sectionValue key beside rest)).insertAll
              (sectionMembers rest) := by
        intro metadata current?
        simp only [readSections, hline, sectionValue]
        by_cases hparams : key = paramsKey
        · simp only [if_pos hparams]
          exact ihClosed _
        · simp only [if_neg hparams, ← foldl_continued]
          by_cases hempty : key = []
          · simp only [if_pos hempty, List.foldl_nil]
            exact ihClosed _
          · simp only [if_neg hempty]
            exact ihOpen metadata key beside
      refine ⟨fun metadata => ?_, fun metadata key text => ?_⟩
      · rw [hstep, sectionMembers, hline]
        rfl
      · rw [hstep, sectionMembers, hline, continuation_cons_of_some hline]
        rfl

/-- Each section line gives its key the value of its section. -/
theorem sections_eq_ofList (lines : List Text) : sections lines = .ofList (sectionMembers lines) :=
  (readSections_eq_insertAll lines).1 .empty

/-! ## The closed form -/

theorem map_fst_sectionMembers (lines : List Text) :
    (sectionMembers lines).map Prod.fst = lines.filterMap sectionKey? := by
  induction lines with
  | nil => rfl
  | cons line rest ih =>
    cases hline : sectionLine? line with
    | none => simp only [sectionMembers, hline, List.filterMap_cons, sectionKey?, Option.map_none, ih]
    | some found => simp only [sectionMembers, hline, List.filterMap_cons, sectionKey?,
        Option.map_some, List.map_cons, ih]

/-- The last section with a key starts at the last line that starts one. -/
theorem lookup_sectionMembers (key : Text) (lines : List Text) :
    (sectionMembers lines).reverse.lookup key =
      (lastSection? key lines).map fun (beside, behind) => sectionValue key beside behind := by
  induction lines with
  | nil => rfl
  | cons line rest ih =>
    rw [lastSection?, Option.map_or, ← ih]
    cases hline : sectionLine? line with
    | none => simp only [sectionMembers, hline, Option.bind_none, Option.map_none, Option.or_none]
    | some found =>
      obtain ⟨k, beside⟩ := found
      simp only [sectionMembers, hline, List.reverse_cons, List.lookup_append, List.lookup_cons,
        List.lookup_nil, Option.bind_some]
      by_cases h : k = key
      · subst h
        simp only [beq_self_eq_true, ↓reduceIte, Option.map_some]
      · simp only [beq_eq_false_iff_ne.mpr (Ne.symm h), if_neg h, Option.map_none]

/-- Lines before the first section say nothing. -/
theorem sectionMembers_dropWhile (lines : List Text) :
    sectionMembers (lines.dropWhile fun line => (sectionLine? line).isNone) =
      sectionMembers lines := by
  induction lines with
  | nil => rfl
  | cons line rest ih =>
    cases hline : sectionLine? line with
    | none => rw [List.dropWhile_cons_of_pos (by simp only [hline, Option.isNone_none]), ih,
        sectionMembers, hline]
    | some found => rw [List.dropWhile_cons_of_neg (by simp only [hline, Option.isNone_some,
        Bool.false_eq_true, not_false_eq_true])]

theorem tree?_sectionValue {key : Text} (h : key ≠ paramsKey) (beside : Text) (behind : List Text) :
    (sectionValue key beside behind).tree? = none := by
  rw [sectionValue, if_neg h]
  rfl

/-- **The sections in closed form.** Their keys are those of the section lines, each once, in the
order of first occurrence; the value under a key is that of the last section with it. So no value but
the parameters is a tree, and lines before the first section have no effect. -/
theorem sections_closed_form (lines : List Text) :
    (sections lines).keys = (lines.filterMap sectionKey?).eraseDups ∧
    (∀ key, (sections lines).find? key =
      (lastSection? key lines).map fun (beside, behind) => sectionValue key beside behind) ∧
    (∀ key, key = paramsKey ∨ ((sections lines).find? key).bind Value.tree? = none) ∧
    sections (lines.dropWhile fun line => (sectionLine? line).isNone) = sections lines := by
  have hfind : ∀ key, (sections lines).find? key =
      (lastSection? key lines).map fun (beside, behind) => sectionValue key beside behind := by
    intro key
    rw [sections_eq_ofList, Tree.find?_ofList, lookup_sectionMembers]
  refine ⟨?_, hfind, fun key => ?_, ?_⟩
  · rw [sections_eq_ofList, Tree.keys_ofList, map_fst_sectionMembers]
  · by_cases h : key = paramsKey
    · exact .inl h
    · refine .inr ?_
      rw [hfind]
      cases lastSection? key lines with
      | none => rfl
      | some found => exact tree?_sectionValue h found.1 found.2
  · rw [sections_eq_ofList, sections_eq_ofList, sectionMembers_dropWhile]

end ShellDoc.Comment
