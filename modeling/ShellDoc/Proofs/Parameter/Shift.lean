import ShellDoc.Proofs.Parameter.Noise
import ShellDoc.Proofs.Text
import Mathlib.Data.List.Forall2

/-!
# Levels are alike

Nothing in the rules of parameters depends on how deep a level is. When all lines that start with a
dash get one dash more, each level is read one level further down, with the same names and values.
And what a deep level reads, the top level reads once the dashes of the levels above are taken off
(`tree_deepened_and_raised`).

The two ways of moving lines have one invariant, `IsShifted`: a line and its counterpart either both
lie above the level, where nothing sees them, or differ by a fixed number of dashes and in nothing
else. It holds for the levels below if it holds for a level, so that it passes on to the regions
below parameters (`members_shifted`).
-/

namespace ShellDoc.Parameter

/-- A parameter line some levels further down. -/
def Line.below (shift : Nat) (found : Line) : Line :=
  { found with depth := found.depth + shift }

/-- A line and its counterpart `shift` levels further down, as seen from the level `depth`: either
both lie above the level in question, or the counterpart has so many dashes more, and reads as the
same parameter if the line reads as one. -/
def IsShifted (depth shift : Nat) (line line' : Text) : Prop :=
  dashes line < depth ∧ dashes line' < depth + shift ∨
    dashes line' = dashes line + shift ∧ line? line' = (line? line).map (Line.below shift)

variable {depth shift : Nat} {line line' : Text} {lines lines' : List Text}

/-! ## One line -/

/-- What lies above a level lies above the levels below it. -/
theorem IsShifted.succ (h : IsShifted depth shift line line') :
    IsShifted (depth + 1) shift line line' := by
  apply h.imp_left
  intro hlt
  omega

theorem IsShifted.dashes_eq_iff (h : IsShifted depth shift line line') :
    dashes line' = depth + shift ↔ dashes line = depth := by
  unfold IsShifted at h
  omega

theorem IsShifted.lineAt?_eq (h : IsShifted depth shift line line') :
    lineAt? (depth + shift) line' = (lineAt? depth line).map (Line.below shift) := by
  rcases h with ⟨hlt, hlt'⟩ | ⟨_, hline⟩
  · rw [lineAt?_of_dashes_ne (Nat.ne_of_lt hlt), lineAt?_of_dashes_ne (Nat.ne_of_lt hlt')]
    rfl
  · rw [lineAt?, lineAt?, hline]
    cases line? line with
    | none => rfl
    | some found =>
      by_cases hdepth : found.depth = depth
      · simp only [Option.map_some, Option.filter_some, Line.below, hdepth, beq_self_eq_true,
          ↓reduceIte]
      · simp only [Option.map_some, Option.filter_some, Line.below, beq_iff_eq,
          Nat.add_right_cancel_iff, hdepth, ↓reduceIte, Option.map_none]

/-- More dashes in front of those that a line has make it a line further down. -/
theorem isShifted_of_trim_eq (hdashes : dashes line ≠ 0)
    (h : line'.trim = List.replicate shift '-' ++ line.trim) (depth : Nat) :
    IsShifted depth shift line line' := by
  have hcount : dashes line' = dashes line + shift := by
    rw [dashes, h, Text.takeWhile_replicate_append, List.length_append, List.length_replicate,
      Nat.add_comm, dashes]
  have hbehind : line'.trim.dropWhile (· == '-') = line.trim.dropWhile (· == '-') := by
    rw [h, Text.dropWhile_replicate_append]
  have hcount' : dashes line' ≠ 0 := by omega
  refine .inr ⟨hcount, ?_⟩
  unfold line?
  rw [hbehind]
  split
  next behind _ =>
    simp only [hdashes, hcount', ne_eq, not_false_eq_true, true_and]
    split
    next => rw [hcount]; rfl
    next => rfl
  next => rfl

/-! ## Regions and levels -/

/-- The region below a parameter moves with its lines. -/
theorem region_shifted (h : List.Forall₂ (IsShifted depth shift) lines lines') :
    List.Forall₂ (IsShifted (depth + 1) shift) (region depth lines)
      (region (depth + shift) lines') := by
  induction h with
  | nil => exact .nil
  | cons hline _ ih =>
    rw [region_cons, region_cons]
    simp only [hline.dashes_eq_iff]
    split
    next => exact .nil
    next => exact .cons hline.succ ih

/-- **A level is read alike further down.** The induction is on the recursion of the levels. In the
region below a parameter the lines are counterparts as the next level sees them. -/
theorem members_shifted (h : List.Forall₂ (IsShifted depth shift) lines lines') :
    members (depth + shift) lines' = members depth lines := by
  induction depth, lines using members.induct generalizing lines' with
  | case1 depth =>
    cases h
    rw [members, members]
  | case2 depth line rest hline ih =>
    cases h with
    | cons hfirst hrest =>
      have hline' := hfirst.lineAt?_eq
      rw [hline] at hline'
      rw [members_cons_of_none hline, members_cons_of_none hline', ih hrest]
  | case3 depth line rest found hline ihRegion ihRest =>
    cases h with
    | cons hfirst hrest =>
      have hline' := hfirst.lineAt?_eq
      rw [hline] at hline'
      have hregion := ihRegion (region_shifted hrest)
      rw [Nat.add_right_comm] at hregion
      rw [members_cons_of_some hline, members_cons_of_some hline', ihRest hrest, tree, tree,
        hregion]
      rfl

/-! ## Lines moved down, and lines moved up -/

/-- A line one level further down: a line that starts with a dash gets one more in front, without
the white space around the line. -/
def deepened (line : Text) : Text :=
  if line.trim.head? = some '-' then '-' :: line.trim else line

/-- A line without the dashes of some levels: empty if it has no more dashes than that. -/
def raised (levels : Nat) (line : Text) : Text :=
  if dashes line ≤ levels then [] else line.trim.drop levels

theorem isShifted_deepened (h : 1 ≤ depth) (line : Text) :
    IsShifted depth 1 line (deepened line) := by
  unfold deepened
  split
  next hdash =>
    have hend : line.trim.trimEnd = line.trim := (Text.trim_eq_self_iff.mp (Text.trim_trim line)).2
    apply isShifted_of_trim_eq
    · rw [Ne, dashes_eq_zero_iff, not_not]
      exact hdash
    · exact Text.trim_cons (by decide) hend
  next hdash =>
    have hnone := dashes_eq_zero_iff.mpr hdash
    left
    omega

/-- A line with more dashes than `levels` has, behind as many, a dash again. -/
theorem exists_trim_eq {levels : Nat} (h : levels < dashes line) :
    ∃ rest, line.trim = List.replicate levels '-' ++ '-' :: rest := by
  obtain ⟨more, hmore⟩ := Nat.exists_eq_add_of_lt h
  refine ⟨List.replicate more '-' ++ line.trim.dropWhile (· == '-'), ?_⟩
  calc line.trim
    _ = List.replicate (levels + (more + 1)) '-' ++ line.trim.dropWhile (· == '-') := by
      rw [← Nat.add_assoc, ← hmore]
      exact trim_eq_replicate_append line
    _ = _ := by
      rw [List.replicate_add, List.replicate_succ, List.append_assoc, List.cons_append]

theorem isShifted_raised (levels : Nat) (line : Text) :
    IsShifted 1 levels (raised levels line) line := by
  unfold raised
  split
  next hle =>
    left
    exact ⟨by decide, by omega⟩
  next hlt =>
    obtain ⟨rest, hrest⟩ := exists_trim_eq (Nat.not_le.mp hlt)
    have hdrop : line.trim.drop levels = '-' :: rest := by
      rw [hrest, List.drop_left' List.length_replicate]
    have hsuffix : rest <:+ line.trim := by
      rw [hrest]
      exact (List.suffix_cons '-' rest).trans (List.suffix_append _ _)
    have htrim : Text.trim ('-' :: rest) = '-' :: rest := by
      apply Text.trim_cons (by decide)
      exact Text.trimEnd_of_isSuffix hsuffix (Text.trim_eq_self_iff.mp (Text.trim_trim line)).2
    rw [hdrop]
    apply isShifted_of_trim_eq
    · rw [Ne, dashes_eq_zero_iff, htrim, not_not]
      rfl
    · rw [htrim]
      exact hrest

/-! ## Trees -/

/-- **Levels are alike.** One dash more on all lines that start with a dash, and a level is read one
level further down. What any level reads is what the top level reads without the dashes of the
levels in between. -/
theorem tree_deepened_and_raised :
    (∀ depth lines, 1 ≤ depth → tree (depth + 1) (lines.map deepened) = tree depth lines) ∧
    ∀ levels lines, tree (levels + 1) lines = tree 1 (lines.map (raised levels)) := by
  constructor
  · intro depth lines hdepth
    have hshifted : List.Forall₂ (IsShifted depth 1) lines (lines.map deepened) := by
      rw [List.forall₂_map_right_iff, List.forall₂_same]
      intro line _
      exact isShifted_deepened hdepth line
    rw [tree, tree, members_shifted hshifted]
  · intro levels lines
    have hshifted : List.Forall₂ (IsShifted 1 levels) (lines.map (raised levels)) lines := by
      rw [List.forall₂_map_left_iff, List.forall₂_same]
      intro line _
      exact isShifted_raised levels line
    rw [tree, tree, Nat.add_comm, members_shifted hshifted]

/-- Lines of two levels: a parameter with a text, a bare dash, a parameter that is lost behind it, a
name without text and with white space around its line, a malformed line, and prose. -/
def unevenLines : List Text :=
  ["-@a one".toList, "- note".toList, "--@lost two".toList, "  -@b\t".toList, "--@c three ".toList,
    "---".toList, "--@ four".toList, "prose".toList]

theorem tree_deepened_and_raised_unevenLines :
    1 ≤ 1 ∧
      unevenLines.map deepened =
        ["--@a one".toList, "-- note".toList, "---@lost two".toList, "--@b".toList,
          "---@c three".toList, "----".toList, "---@ four".toList, "prose".toList] ∧
      tree 2 (unevenLines.map deepened) =
        .ofList [("a".toList, .text "one".toList),
          ("b".toList, .tree (.ofList [("c".toList, .text "three".toList)]))] ∧
      tree 2 unevenLines = tree 1 (unevenLines.map (raised 1)) := by
  refine ⟨Nat.le_refl 1, by decide, ?_, ?_⟩
  · rw [tree_deepened_and_raised.1 1 unevenLines (Nat.le_refl 1)]
    decide +kernel
  · exact tree_deepened_and_raised.2 1 unevenLines

end ShellDoc.Parameter
