import ShellDoc.Script.Scan
import ShellDoc.Proofs.Text

/-!
# Runs of the script reader

A run over trimmed lines has two results: the functions that the lines close (`closedBy`), and the
reading that they leave to later lines (`Reading.after`). Both split where the lines do, with the
second part read from what the first part leaves (`closedBy_append`, `Reading.after_append`).
-/

namespace ShellDoc.Script

/-- What the trimmed lines leave to later lines. The first of them has the given number. -/
def Reading.after (marker : Char) (number : Nat) (reading : Reading) : List Text → Reading
  | [] => reading
  | line :: rest => Reading.after marker (number + 1) (reading.next marker number line).1 rest

/-- The functions that the trimmed lines close. -/
def closedBy (marker : Char) (number : Nat) (reading : Reading) : List Text → List FunctionDoc
  | [] => []
  | line :: rest =>
    (reading.next marker number line).2.toList ++
      closedBy marker (number + 1) (reading.next marker number line).1 rest

theorem functionsFrom_eq_closedBy (marker : Char) (number : Nat) (reading : Reading)
    (lines : List Text) :
    functionsFrom marker number reading lines =
      closedBy marker number reading (lines.map Text.trim) := by
  induction lines generalizing number reading with
  | nil => rfl
  | cons line rest ih => simp only [functionsFrom, List.map_cons, closedBy, ih]

theorem Reading.after_append (marker : Char) (number : Nat) (reading : Reading)
    (xs ys : List Text) :
    reading.after marker number (xs ++ ys) =
      (reading.after marker number xs).after marker (number + xs.length) ys := by
  induction xs generalizing number reading with
  | nil => rfl
  | cons line rest ih =>
    rw [List.cons_append, Reading.after, Reading.after, ih, List.length_cons,
      Nat.add_right_comm, Nat.add_assoc]

theorem closedBy_append (marker : Char) (number : Nat) (reading : Reading) (xs ys : List Text) :
    closedBy marker number reading (xs ++ ys) =
      closedBy marker number reading xs ++
        closedBy marker (number + xs.length) (reading.after marker number xs) ys := by
  induction xs generalizing number reading with
  | nil => rfl
  | cons line rest ih =>
    rw [List.cons_append, closedBy, closedBy, Reading.after, ih, List.length_cons,
      Nat.add_right_comm, Nat.add_assoc, List.append_assoc]

/-- A closing brace is one under every marker, being no documentation for want of a second
character. -/
theorem lineKind_brace (marker : Char) : lineKind marker ['}'] = .closing := by
  have hmark : (Comment.docMark marker).isPrefixOf? ['}'] = none := by
    rw [Comment.docMark, List.isPrefixOf?]
    split <;> rfl
  rw [lineKind, hmark]
  rfl

theorem mem_docMark_iff {marker c : Char} : c ∈ Comment.docMark marker ↔ c = marker := by
  simp only [Comment.docMark, List.mem_cons, List.not_mem_nil, or_false, or_self]

/-- The doubled marker is not trimmed if the marker is no white space. -/
theorem trim_docMark_append {marker : Char} (hspace : Text.isSpace marker = false) (rest : Text) :
    (Comment.docMark marker ++ rest).trim = Comment.docMark marker ++ rest.trimEnd := by
  have hmark : (Comment.docMark marker).trimEnd = Comment.docMark marker := by
    apply Text.trimEnd_eq_self_of_forall
    intro c hc
    rw [mem_docMark_iff.mp hc]
    exact hspace
  have hstart : (Comment.docMark marker ++ rest).trimStart = Comment.docMark marker ++ rest :=
    Text.trimStart_cons hspace _
  rw [Text.trim, hstart, Text.trimEnd_append_right hmark]

theorem lineKind_of_trim_eq {marker : Char} {line rest : Text}
    (h : line.trim = Comment.docMark marker ++ rest) :
    lineKind marker line.trim = .documentation rest.trimStart := by
  have hmark : (Comment.docMark marker).isPrefixOf? line.trim = some rest :=
    List.isPrefixOf?_eq_some_iff_append_eq.mpr h.symm
  rw [lineKind, hmark]

/-- Documentation lines wait behind those that wait already, and close nothing. -/
theorem documentation_read {marker : Char} {lines texts : List Text}
    (h : lines.map (lineKind marker) = texts.map LineKind.documentation) (number : Nat)
    (reading : Reading) :
    closedBy marker number reading lines = [] ∧
      reading.after marker number lines = { reading with pending := reading.pending ++ texts } := by
  induction lines generalizing texts number reading with
  | nil =>
    cases texts with
    | nil => simp only [closedBy, Reading.after, List.append_nil, and_self]
    | cons text texts => exact absurd h.symm (List.cons_ne_nil _ _)
  | cons line rest ih =>
    cases texts with
    | nil => exact absurd h (List.cons_ne_nil _ _)
    | cons text texts =>
      obtain ⟨hline, hrest⟩ := List.cons.inj h
      have hnext : reading.next marker number line =
          ({ reading with pending := reading.pending ++ [text] }, none) := by
        rw [Reading.next, hline]
      obtain ⟨hclosed, hafter⟩ := ih hrest (number + 1) { reading with
        pending := reading.pending ++ [text] }
      simp only [closedBy, Reading.after, hnext, Option.toList_none, List.nil_append]
      refine ⟨hclosed, hafter.trans ?_⟩
      rw [List.append_assoc, List.singleton_append]

/-- Other lines extend the body of the open function, and close nothing. -/
theorem otherLines_read {marker : Char} {lines : List Text}
    (h : ∀ line ∈ lines, lineKind marker line = .other) (number : Nat) (pending : List Text)
    (f : FunctionDoc) :
    closedBy marker number ⟨pending, some f⟩ lines = [] ∧
      Reading.after marker number ⟨pending, some f⟩ lines =
        ⟨pending, some { f with body := lines.foldl extendBody f.body }⟩ := by
  induction lines generalizing number f with
  | nil => exact ⟨rfl, rfl⟩
  | cons line rest ih =>
    obtain ⟨hkind, hrest⟩ := List.forall_mem_cons.mp h
    have hnext : Reading.next marker number line ⟨pending, some f⟩ =
        (⟨pending, some { f with body := extendBody f.body line }⟩, none) := by
      rw [Reading.next, hkind]
    simp only [closedBy, Reading.after, hnext, Option.toList_none, List.nil_append]
    exact ih hrest (number + 1) { f with body := extendBody f.body line }

/-- A body collects its lines by joining them, those left out that are empty. -/
theorem extendBody_join {pieces : List Text} (h : ∀ piece ∈ pieces, piece ≠ []) (line : Text) :
    extendBody (Text.join ['\n'] pieces) line =
      Text.join ['\n'] (pieces ++ if line = [] then [] else [line]) := by
  unfold extendBody
  by_cases hline : line = []
  · rw [if_pos hline, if_pos hline, List.append_nil]
  · rw [if_neg hline, if_neg hline]
    simp only [Text.join_eq_nil_iff h]
    by_cases hpieces : pieces = []
    · subst hpieces
      rw [if_pos rfl, List.nil_append, Text.join, List.intercalate_singleton]
    · rw [if_neg hpieces, Text.join_concat hpieces, List.append_assoc, List.singleton_append]

theorem foldl_extendBody_join {pieces : List Text} (h : ∀ piece ∈ pieces, piece ≠ [])
    (lines : List Text) :
    lines.foldl extendBody (Text.join ['\n'] pieces) =
      Text.join ['\n'] (pieces ++ lines.filter (· ≠ [])) := by
  induction lines generalizing pieces with
  | nil => rw [List.foldl_nil, List.filter_nil, List.append_nil]
  | cons line rest ih =>
    have hnext : ∀ piece ∈ pieces ++ (if line = [] then [] else [line]), piece ≠ [] := by
      refine List.forall_mem_append.mpr ⟨h, ?_⟩
      split
      next => exact List.forall_mem_nil _
      next hline => exact List.forall_mem_singleton.mpr hline
    rw [List.foldl_cons, extendBody_join h, ih hnext, List.append_assoc]
    by_cases hline : line = []
    · simp [hline]
    · simp [hline]

/-- What the body of a function becomes when lines extend it from the start. -/
theorem foldl_extendBody (lines : List Text) :
    lines.foldl extendBody [] = Text.join ['\n'] (lines.filter (· ≠ [])) :=
  foldl_extendBody_join (List.forall_mem_nil _) lines

end ShellDoc.Script
