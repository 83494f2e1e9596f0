import ShellDoc.Proofs.Parameter.Line

/-!
# Lines that a level does not see

A level of parameters reads the lines with its own number of dashes, and hands on what stands deeper.
Lines with another number of dashes that stand before any parameter are passed over
(`members_append_of_dashes_ne`), and lines with fewer dashes are passed over wherever they stand, in
the regions below parameters too (`members_filter`). So two lists of lines that differ only in such
lines spell out the same tree (`tree_eq_of_sameButFor`).
-/

namespace ShellDoc.Parameter

theorem members_cons_of_none {depth : Nat} {line : Text} (h : lineAt? depth line = none)
    (rest : List Text) : members depth (line :: rest) = members depth rest := by
  rw [members, h]

theorem members_cons_of_some {depth : Nat} {line : Text} {found : Line}
    (h : lineAt? depth line = some found) (rest : List Text) :
    members depth (line :: rest) =
      (found.name, value found.beside (tree (depth + 1) (region depth rest))) ::
        members depth rest := by
  rw [members, h, tree]

theorem lineAt?_of_dashes_ne {depth : Nat} {line : Text} (h : dashes line ≠ depth) :
    lineAt? depth line = none := by
  cases hline : lineAt? depth line with
  | none => rfl
  | some found => exact absurd (dashes_of_lineAt? hline) h

/-- Lines of other depths that come first give nothing. -/
theorem members_append_of_dashes_ne {depth : Nat} {xs : List Text}
    (h : ∀ line ∈ xs, dashes line ≠ depth) (ys : List Text) :
    members depth (xs ++ ys) = members depth ys := by
  induction xs with
  | nil => rfl
  | cons line rest ih =>
    obtain ⟨hline, hrest⟩ := List.forall_mem_cons.mp h
    rw [List.cons_append, members_cons_of_none (lineAt?_of_dashes_ne hline), ih hrest]

theorem region_cons (depth : Nat) (line : Text) (rest : List Text) :
    region depth (line :: rest) =
      if dashes line = depth then [] else line :: region depth rest := by
  by_cases h : dashes line = depth
  · simp only [region, List.takeWhile_cons, h, bne_self_eq_false, Bool.false_eq_true, ↓reduceIte]
  · simp only [region, List.takeWhile_cons, bne_iff_ne.mpr h, ↓reduceIte, h]

/-- Shallower lines can be taken out before or after a region is cut off. -/
theorem region_filter (depth : Nat) (lines : List Text) :
    region depth (lines.filter fun line => depth ≤ dashes line) =
      (region depth lines).filter fun line => depth + 1 ≤ dashes line := by
  induction lines with
  | nil => rfl
  | cons line rest ih =>
    rw [region_cons, List.filter_cons]
    rcases Nat.lt_trichotomy (dashes line) depth with hlt | heq | hgt
    · have hdeep : ¬ depth + 1 ≤ dashes line := by omega
      simp only [Nat.not_le.mpr hlt, Nat.ne_of_lt hlt, decide_false, Bool.false_eq_true, ↓reduceIte,
        List.filter_cons, hdeep, ih]
    · simp only [heq, Nat.le_refl, decide_true, ↓reduceIte, region_cons, List.filter_nil]
    · have hdeep : depth + 1 ≤ dashes line := hgt
      simp only [Nat.le_of_lt hgt, decide_true, ↓reduceIte, region_cons, Nat.ne_of_gt hgt,
        List.filter_cons, hdeep, ih]

/-- **Shallower lines are noise**, at every level. The induction is on the recursion of the levels;
in the region of a parameter the lines to leave out are those of the next level. -/
theorem members_filter (depth : Nat) (lines : List Text) :
    members depth (lines.filter fun line => depth ≤ dashes line) = members depth lines := by
  induction depth, lines using members.induct with
  | case1 depth => rfl
  | case2 depth line rest hline ih =>
    rw [members_cons_of_none hline, List.filter_cons]
    split
    next => rw [members_cons_of_none hline, ih]
    next => exact ih
  | case3 depth line rest found hline ihRegion ihRest =>
    have hkept : decide (depth ≤ dashes line) = true :=
      decide_eq_true (Nat.le_of_eq (dashes_of_lineAt? hline).symm)
    rw [List.filter_cons, if_pos hkept, members_cons_of_some hline, members_cons_of_some hline,
      ihRest, region_filter, tree, tree, ihRegion]

/-- Shallower lines behind all others give nothing, and are in the region of none. -/
theorem members_append_of_dashes_lt {depth : Nat} {others : List Text}
    (h : ∀ line ∈ others, dashes line < depth) (lines : List Text) :
    members depth (lines ++ others) = members depth lines := by
  have hnone : others.filter (fun line => depth ≤ dashes line) = [] := by
    refine List.filter_eq_nil_iff.mpr fun line hline => ?_
    rw [decide_eq_true_eq]
    exact Nat.not_le.mpr (h line hline)
  rw [← members_filter, List.filter_append, hnone, List.append_nil, members_filter]

/-! ## Noise put in and taken out -/

/-- Two lists of lines that are the same but for noise, which either of them may have anywhere and
in any number. A line of noise that is edited stands as it was on the left, and as it is on the
right. -/
inductive SameButFor (noise : Text → Prop) : List Text → List Text → Prop
  | nil : SameButFor noise [] []
  | keep {line : Text} {xs ys : List Text} :
    SameButFor noise xs ys → SameButFor noise (line :: xs) (line :: ys)
  | left {line : Text} {xs ys : List Text} :
    noise line → SameButFor noise xs ys → SameButFor noise (line :: xs) ys
  | right {line : Text} {xs ys : List Text} :
    noise line → SameButFor noise xs ys → SameButFor noise xs (line :: ys)

namespace SameButFor

variable {noise noise' : Text → Prop} {xs ys : List Text}

theorem mono (hnoise : ∀ line, noise line → noise' line) (h : SameButFor noise xs ys) :
    SameButFor noise' xs ys := by
  induction h with
  | nil => exact .nil
  | keep _ ih => exact .keep ih
  | left hline _ ih => exact .left (hnoise _ hline) ih
  | right hline _ ih => exact .right (hnoise _ hline) ih

/-- What is true of all lines of one list, and of noise, is true of all lines of the other. -/
theorem forall_mem {P : Text → Prop} (hnoise : ∀ line, noise line → P line)
    (h : SameButFor noise xs ys) (hxs : ∀ line ∈ xs, P line) : ∀ line ∈ ys, P line := by
  induction h with
  | nil => exact hxs
  | keep _ ih =>
    obtain ⟨hline, hxs⟩ := List.forall_mem_cons.mp hxs
    exact List.forall_mem_cons.mpr ⟨hline, ih hxs⟩
  | left _ _ ih => exact ih (List.forall_mem_cons.mp hxs).2
  | right hline _ ih => exact List.forall_mem_cons.mpr ⟨hnoise _ hline, ih hxs⟩

/-- Without the noise both lists are the same. -/
theorem filter_eq {kept : Text → Bool} (hnoise : ∀ line, noise line → ¬ kept line = true)
    (h : SameButFor noise xs ys) : xs.filter kept = ys.filter kept := by
  induction h with
  | nil => rfl
  | keep _ ih => rw [List.filter_cons, List.filter_cons, ih]
  | left hline _ ih => rw [List.filter_cons_of_neg (hnoise _ hline), ih]
  | right hline _ ih => rw [List.filter_cons_of_neg (hnoise _ hline), ih]

end SameButFor

/-- Shallower lines make no difference to a tree, wherever they are put in or taken out. -/
theorem tree_eq_of_sameButFor {depth : Nat} {xs ys : List Text}
    (h : SameButFor (dashes · < depth) xs ys) : tree depth xs = tree depth ys := by
  have hkept : xs.filter (fun line => depth ≤ dashes line) =
      ys.filter fun line => depth ≤ dashes line := by
    refine h.filter_eq fun line hline => ?_
    rw [decide_eq_true_eq]
    exact Nat.not_le.mpr hline
  rw [tree, tree, ← members_filter, hkept, members_filter]

end ShellDoc.Parameter
