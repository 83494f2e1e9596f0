import ShellDoc.Comment.Parameter

/-!
# Laws of parameter lines

What it means that a line reads as a parameter, with `line?` and `lineAt?` taken apart, and which
lines the region below a parameter has.
-/

namespace ShellDoc.Parameter

theorem lineAt?_eq_some_iff {depth : Nat} {line : Text} {found : Line} :
    lineAt? depth line = some found ↔ line? line = some found ∧ found.depth = depth := by
  simp only [lineAt?, Option.filter_eq_some_iff, beq_iff_eq]

/-- The parts that the reader finds in a line. -/
theorem exists_of_line? {line : Text} {found : Line} (h : line? line = some found) :
    ∃ behind, line.trim.dropWhile (· == '-') = '@' :: behind ∧ dashes line ≠ 0 ∧
      behind.takeWhile isNameChar ≠ [] ∧ '\n' ∉ Text.trimStart (behind.dropWhile isNameChar) ∧
      found = ⟨dashes line, behind.takeWhile isNameChar,
        Text.trimStart (behind.dropWhile isNameChar)⟩ := by
  simp only [line?] at h
  split at h
  next behind hbehind =>
    split at h
    next hguard =>
      cases h
      exact ⟨behind, hbehind, hguard.1, hguard.2.1, hguard.2.2, rfl⟩
    next => cases h
  next => cases h

theorem depth_of_line? {line : Text} {found : Line} (h : line? line = some found) :
    found.depth = dashes line := by
  obtain ⟨_, _, _, _, _, rfl⟩ := exists_of_line? h
  rfl

theorem dashes_of_lineAt? {depth : Nat} {line : Text} {found : Line}
    (h : lineAt? depth line = some found) : dashes line = depth := by
  obtain ⟨hline, hdepth⟩ := lineAt?_eq_some_iff.mp h
  rw [← depth_of_line? hline, hdepth]

theorem dashes_eq_zero_iff {line : Text} : dashes line = 0 ↔ line.trim.head? ≠ some '-' := by
  rw [dashes, List.length_eq_zero_iff]
  cases line.trim with
  | nil => exact iff_of_true rfl (by decide)
  | cons c rest => simp [List.takeWhile_cons]

/-- A trimmed line is its dashes and what is behind them. -/
theorem trim_eq_replicate_append (line : Text) :
    line.trim = List.replicate (dashes line) '-' ++ line.trim.dropWhile (· == '-') := by
  have hrun : line.trim.takeWhile (· == '-') = List.replicate (dashes line) '-' := by
    refine List.eq_replicate_iff.mpr ⟨rfl, fun c hc => ?_⟩
    exact beq_iff_eq.mp (List.all_eq_true.mp List.all_takeWhile c hc)
  rw [← hrun, List.takeWhile_append_dropWhile]

/-! ## Regions -/

theorem region_append_dropWhile (depth : Nat) (lines : List Text) :
    region depth lines ++ lines.dropWhile (dashes · != depth) = lines :=
  List.takeWhile_append_dropWhile

/-- No line of a region has the depth that ends the region. -/
theorem dashes_ne_of_mem_region {depth : Nat} {lines : List Text} {line : Text}
    (h : line ∈ region depth lines) : dashes line ≠ depth := by
  have hall := List.all_eq_true.mp (List.all_takeWhile (p := (dashes · != depth)) (l := lines))
  exact bne_iff_ne.mp (hall line h)

end ShellDoc.Parameter
