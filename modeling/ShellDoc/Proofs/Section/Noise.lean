import ShellDoc.Proofs.Section.ClosedForm
import ShellDoc.Proofs.Parameter.Noise

/-!
# Lines that the parameters do not see

The parameters of a comment are read off all lines behind the last line that starts them, later
sections included (`find?_params`). Those of them that do not start with a dash are noise to the
reader of parameters at every level. So sections, blank lines and prose may come and go there
(`tree_and_params_of_sameButFor`).
-/

namespace ShellDoc.Comment

open Parameter (SameButFor dashes tree)

variable {key first : Text} {behind : List Text}

/-! ## The last section with a key -/

theorem lastSection?_eq_none (h : ∀ line ∈ behind, sectionKey? line ≠ some key) :
    lastSection? key behind = none := by
  induction behind with
  | nil => rfl
  | cons line rest ih =>
    obtain ⟨hline, hrest⟩ := List.forall_mem_cons.mp h
    rw [lastSection?, ih hrest, Option.none_or]
    cases hstart : sectionLine? line with
    | none => rfl
    | some found =>
      rw [sectionKey?, hstart] at hline
      exact if_neg fun heq => hline (congrArg some heq)

/-- Lines in front of the last section with a key make no difference to it. -/
theorem lastSection?_append {lines : List Text} {found : Text × List Text}
    (h : lastSection? key lines = some found) (before : List Text) :
    lastSection? key (before ++ lines) = some found := by
  induction before with
  | nil => exact h
  | cons line rest ih => rw [List.cons_append, lastSection?, ih, Option.some_or]

/-- The parameters are those of the lines behind the last line that starts them. -/
theorem find?_params (hfirst : sectionKey? first = some paramsKey)
    (hbehind : ∀ line ∈ behind, sectionKey? line ≠ some paramsKey) (before : List Text) :
    (sections (before ++ first :: behind)).find? paramsKey = some (.tree (tree 1 behind)) := by
  obtain ⟨⟨key, beside⟩, hline, rfl⟩ := Option.map_eq_some_iff.mp hfirst
  have hlast : lastSection? paramsKey (first :: behind) = some (beside, behind) := by
    rw [lastSection?, lastSection?_eq_none hbehind, hline, Option.none_or, Option.bind_some]
    exact if_pos rfl
  rw [sections_eq_ofList, Tree.find?_ofList, lookup_sectionMembers, lastSection?_append hlast]
  exact congrArg some (if_pos rfl)

/-! ## Noise -/

/-- A line that says nothing to the parameters in front of it: trimmed, it does not start with a
dash, and it does not start them again. -/
def IsAside (line : Text) : Prop :=
  line.trim.head? ≠ some '-' ∧ sectionKey? line ≠ some paramsKey

theorem IsAside.dashes_lt {line : Text} (h : IsAside line) : dashes line < 1 := by
  rw [Parameter.dashes_eq_zero_iff.mpr h.1]
  exact Nat.one_pos

/-- **Shallower lines are noise to parameters.** Lines with fewer dashes than a level has make no
difference to its tree, wherever they are put in, taken out or edited. So the parameters of a comment
stay as they are when, behind the last line that starts them, lines are put in, taken out or edited
that neither start with a dash nor start the parameters again. -/
theorem tree_and_params_of_sameButFor :
    (∀ depth lines lines', SameButFor (dashes · < depth) lines lines' →
      tree depth lines = tree depth lines') ∧
    ∀ before first behind behind', sectionKey? first = some paramsKey →
      (∀ line ∈ behind, sectionKey? line ≠ some paramsKey) → SameButFor IsAside behind behind' →
        (sections (before ++ first :: behind)).find? paramsKey = some (.tree (tree 1 behind)) ∧
        (sections (before ++ first :: behind')).find? paramsKey = some (.tree (tree 1 behind)) := by
  constructor
  · intro depth lines lines' hsame
    exact Parameter.tree_eq_of_sameButFor hsame
  · intro before first behind behind' hfirst hbehind hsame
    -- What is put in does not start the parameters again, so `first` is still the last line to.
    have hbehind' : ∀ line ∈ behind', sectionKey? line ≠ some paramsKey := by
      refine hsame.forall_mem ?_ hbehind
      intro line hline
      exact hline.2
    have hshallow : SameButFor (dashes · < 1) behind behind' := by
      apply hsame.mono
      intro line hline
      exact hline.dashes_lt
    refine ⟨find?_params hfirst hbehind before, ?_⟩
    rw [Parameter.tree_eq_of_sameButFor hshallow]
    exact find?_params hfirst hbehind' before

/-- A dash in a region two levels deep, which it does not close; and a section, prose and a blank
line among parameters. -/
theorem tree_and_params_of_sameButFor_amongParameters :
    tree 2 ["--@a".toList, "---@b one".toList] =
        tree 2 ["--@a".toList, "- note".toList, "---@b one".toList] ∧
      (sections ["@usage run".toList, "@params".toList, "-@a".toList, "--@b one".toList,
          "@see more".toList]).find? paramsKey =
        (sections ["@usage run".toList, "@params".toList, [], "-@a".toList, "prose".toList,
          "--@b one".toList]).find? paramsKey := by
  have haside : ∀ line ∈ [[], "prose".toList, "@see more".toList], IsAside line := by
    simp only [IsAside]
    decide
  have hsame : SameButFor IsAside ["-@a".toList, "--@b one".toList, "@see more".toList]
      [[], "-@a".toList, "prose".toList, "--@b one".toList] :=
    .right (haside _ (by decide)) <| .keep <| .right (haside _ (by decide)) <| .keep <|
      .left (haside _ (by decide)) .nil
  obtain ⟨hbefore, hafter⟩ := tree_and_params_of_sameButFor.2 ["@usage run".toList] "@params".toList
    _ _ (by decide) (by decide) hsame
  exact ⟨tree_and_params_of_sameButFor.1 2 _ _ (.keep (.right (by decide) (.keep .nil))),
    hbefore.trans hafter.symm⟩

end ShellDoc.Comment
