import ShellDoc.Proofs.Parameter.Noise
import ShellDoc.Proofs.Tree

/-!
# Parameters behind parameters

What stands behind the lines of a level disturbs none of them if it starts at the level itself. No
region reaches beyond such a line, whether it is a parameter or not (`region_append`). So the
parameters of both parts are read one after another (`members_append`), and the tree of the second
part can be made on its own before it is inserted (`tree_append`).
-/

namespace ShellDoc.Parameter

variable {depth : Nat} {ys : List Text}

/-- A region ends, at the latest, where lines begin that start at its depth. -/
theorem region_append (h : ∀ line ∈ ys.head?, dashes line = depth) (xs : List Text) :
    region depth (xs ++ ys) = region depth xs := by
  induction xs with
  | nil =>
    cases ys with
    | nil => rfl
    | cons line rest =>
      rw [List.nil_append, region_cons, if_pos (h line rfl)]
      rfl
  | cons line rest ih => rw [List.cons_append, region_cons, region_cons, ih]

/-- The parameters of two parts, when the second one starts at the depth of the level. -/
theorem members_append (h : ∀ line ∈ ys.head?, dashes line = depth) (xs : List Text) :
    members depth (xs ++ ys) = members depth xs ++ members depth ys := by
  induction xs with
  | nil =>
    rw [members]
    rfl
  | cons line rest ih =>
    rw [List.cons_append]
    cases hline : lineAt? depth line with
    | none => rw [members_cons_of_none hline, members_cons_of_none hline, ih]
    | some found =>
      rw [members_cons_of_some hline, members_cons_of_some hline, region_append h, ih,
        List.cons_append]

/-- **New entries disturb no earlier ones.** When lines start at the depth of the level, what they
spell out is inserted into what the lines in front of them spell out, one parameter after the other:
a name that is given again keeps its place and takes the later value as a whole. -/
theorem tree_append (h : ∀ line ∈ ys.head?, dashes line = depth) (xs : List Text) :
    tree depth (xs ++ ys) = (tree depth xs).insertAll (tree depth ys).toList := by
  rw [tree, tree, tree, members_append h, Tree.ofList_append, Tree.insertAll_toList_ofList]

/-- Behind a parameter with others below it, a line that is no parameter, another one that is lost
behind it, and the first parameter again. -/
theorem tree_append_repeated :
    let xs := ["-@a one".toList, "--@b two".toList, "-@c".toList]
    let ys := ["- note".toList, "--@lost".toList, "-@a again".toList]
    (∀ line ∈ ys.head?, dashes line = 1) ∧
      tree 1 (xs ++ ys) = (tree 1 xs).insertAll (tree 1 ys).toList ∧
      tree 1 (xs ++ ys) = .ofList [("a".toList, .text "again".toList), ("c".toList, .tree .empty)] := by
  refine ⟨by decide, tree_append (by decide) _, ?_⟩
  decide +kernel

end ShellDoc.Parameter
