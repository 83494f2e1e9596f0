import ShellDoc.Proofs.Parameter.Line
import ShellDoc.Proofs.Tree

/-!
# Parameters in one pass

`Parameter.tree` reads a level of parameters, and for each of them again the region below it. The
same tree comes out of a single pass over the lines that keeps a stack of open names, outermost
first (`tree_eq_onePass`).

A line whose dashes say that it lies above the level, or more than one step below the innermost open
name, is passed over. Every other line closes the names that are not above it, and a parameter is
then given its value below the names that remain, and opened. So a line that is no parameter still
closes, and what stands deeper behind it is lost until a name is open again.

The proof is a simulation: inside the region of a parameter, the pass at this level does what the
pass one level deeper does on the tree below that parameter (`Pass.next_nest`).
-/

namespace ShellDoc

namespace Tree

/-- The tree below a name: empty if the name has text or is not there. -/
def subtree (name : Text) (t : Tree) : Tree :=
  ((t.find? name).bind Value.tree?).getD .empty

/-- Gives a name its value below a path of names. A name of the path that has no tree gets one. -/
def insertUnder : List Text → Text → Value → Tree → Tree
  | [], name, content, t => t.insert name content
  | key :: path, name, content, t =>
    t.insert key (.tree ((t.subtree key).insertUnder path name content))

theorem isEmpty_insertUnder (path : List Text) (name : Text) (content : Value) (t : Tree) :
    (t.insertUnder path name content).isEmpty = false := by
  cases path <;> exact isEmpty_insert ..

end Tree

namespace Parameter

/-- What a single pass keeps: the tree so far, and the names that are open, outermost first. -/
structure Pass where
  tree : Tree
  stack : List Text

namespace Pass

/-- The pass before the first line. -/
def start : Pass :=
  ⟨.empty, []⟩

/-- Reads one line of the level `depth` and of everything below it. -/
def next (depth : Nat) (pass : Pass) (line : Text) : Pass :=
  let run := dashes line
  if run < depth ∨ depth + pass.stack.length < run then
    pass
  else
    let stack := pass.stack.take (run - depth)
    match lineAt? run line with
    | none => ⟨pass.tree, stack⟩
    | some found =>
      ⟨pass.tree.insertUnder stack found.name (.ofInline found.beside), stack ++ [found.name]⟩

/-- The tree of a pass over all lines. -/
def run (depth : Nat) (pass : Pass) (lines : List Text) : Pass :=
  lines.foldl (next depth) pass

/-- A pass at the level below a parameter, seen from the level of that parameter: its tree is the
value of the parameter, and its open names stand behind the name of the parameter. -/
def nest (t : Tree) (name beside : Text) (pass : Pass) : Pass :=
  ⟨t.insert name (value beside pass.tree), name :: pass.stack⟩

end Pass

/-- The tree of parameters that a single pass over the lines builds. -/
def onePass (depth : Nat) (lines : List Text) : Tree :=
  (Pass.start.run depth lines).tree

/-! ## The value of a parameter -/

theorem value_empty (beside : Text) : value beside .empty = .ofInline beside := rfl

theorem value_of_isEmpty_false {below : Tree} (h : below.isEmpty = false) (beside : Text) :
    value beside below = .tree below := by
  rw [value, h]
  rfl

/-- The value of a parameter tells what stands below it, whatever the text beside it. -/
theorem subtree_insert_value (t below : Tree) (name beside : Text) :
    (t.insert name (value beside below)).subtree name = below := by
  rw [Tree.subtree, Tree.find?_insert_self, Option.bind_some]
  cases below with
  | empty =>
    rw [value_empty, Value.ofInline]
    split <;> rfl
  | member key content rest => rfl

/-- A parameter that is given below another one replaces the text beside that one. -/
theorem insertUnder_insert_value (t below : Tree) (name beside : Text) (path : List Text)
    (key : Text) (content : Value) :
    (t.insert name (value beside below)).insertUnder (name :: path) key content =
      t.insert name (value beside (below.insertUnder path key content)) := by
  rw [Tree.insertUnder, subtree_insert_value, Tree.insert_insert_self,
    value_of_isEmpty_false (Tree.isEmpty_insertUnder ..)]

/-! ## One line -/

namespace Pass

/-- A line of another depth does nothing while no name is open. -/
theorem next_of_dashes_ne {depth : Nat} {line : Text} (h : dashes line ≠ depth) (t : Tree) :
    next depth ⟨t, []⟩ line = ⟨t, []⟩ := by
  unfold next
  exact if_pos (by simp only [List.length_nil]; omega)

/-- A line of the level itself closes all names. -/
theorem next_of_dashes_eq {depth : Nat} {line : Text} (h : dashes line = depth) (pass : Pass) :
    next depth pass line = next depth ⟨pass.tree, []⟩ line := by
  simp only [next, h, Nat.lt_irrefl, Nat.not_lt.mpr (Nat.le_add_right depth _), or_self, ↓reduceIte,
    Nat.sub_self, List.take_zero]

theorem next_of_lineAt?_none {depth : Nat} {line : Text} (h : lineAt? depth line = none) (t : Tree) :
    next depth ⟨t, []⟩ line = ⟨t, []⟩ := by
  by_cases hd : dashes line = depth
  · subst hd
    simp only [next, List.length_nil, Nat.add_zero, Nat.lt_irrefl, or_self, ↓reduceIte,
      List.take_nil, h]
  · exact next_of_dashes_ne hd t

/-- Without an open name, a parameter of the level is given its value and opened. -/
theorem next_of_lineAt?_some {depth : Nat} {line : Text} {found : Line}
    (h : lineAt? depth line = some found) (t : Tree) :
    next depth ⟨t, []⟩ line = nest t found.name found.beside start := by
  have hd : dashes line = depth := dashes_of_lineAt? h
  subst hd
  simp only [next, List.length_nil, Nat.add_zero, Nat.lt_irrefl, or_self, ↓reduceIte, List.take_nil,
    h, Tree.insertUnder, List.nil_append, nest, start, value_empty]

/-- **The simulation step.** Below an open parameter, a line that does not close it does what it
does one level deeper. -/
theorem next_nest {depth : Nat} {line : Text} (h : dashes line ≠ depth) (t : Tree)
    (name beside : Text) (pass : Pass) :
    next depth (nest t name beside pass) line = nest t name beside (next (depth + 1) pass line) := by
  simp only [next, nest, List.length_cons]
  have hlimits : (dashes line < depth ∨ depth + (pass.stack.length + 1) < dashes line) ↔
      (dashes line < depth + 1 ∨ depth + 1 + pass.stack.length < dashes line) := by omega
  simp only [hlimits]
  split
  next => rfl
  next hin =>
    have hcut : dashes line - depth = (dashes line - (depth + 1)) + 1 := by omega
    rw [hcut, List.take_succ_cons]
    cases lineAt? (dashes line) line with
    | none => rfl
    | some found => simp only [insertUnder_insert_value, List.cons_append]

/-! ## Many lines -/

theorem run_append (depth : Nat) (pass : Pass) (xs ys : List Text) :
    pass.run depth (xs ++ ys) = (pass.run depth xs).run depth ys :=
  List.foldl_append

theorem run_nest {depth : Nat} {lines : List Text} (h : ∀ line ∈ lines, dashes line ≠ depth)
    (t : Tree) (name beside : Text) (pass : Pass) :
    (nest t name beside pass).run depth lines =
      nest t name beside (pass.run (depth + 1) lines) := by
  induction lines generalizing pass with
  | nil => rfl
  | cons line rest ih =>
    obtain ⟨hline, hrest⟩ := List.forall_mem_cons.mp h
    simp only [run, List.foldl_cons, next_nest hline]
    exact ih hrest (next (depth + 1) pass line)

theorem run_of_dashes_ne {depth : Nat} {lines : List Text}
    (h : ∀ line ∈ lines, dashes line ≠ depth) (t : Tree) :
    run depth ⟨t, []⟩ lines = ⟨t, []⟩ := by
  induction lines with
  | nil => rfl
  | cons line rest ih =>
    obtain ⟨hline, hrest⟩ := List.forall_mem_cons.mp h
    simp only [run, List.foldl_cons, next_of_dashes_ne hline]
    exact ih hrest

/-- Names that are open when a region ends do not matter to the lines behind it. -/
theorem tree_run_dropWhile (depth : Nat) (pass : Pass) (lines : List Text) :
    (pass.run depth (lines.dropWhile (dashes · != depth))).tree =
      (run depth ⟨pass.tree, []⟩ (lines.dropWhile (dashes · != depth))).tree := by
  cases hrest : lines.dropWhile (dashes · != depth) with
  | nil => rfl
  | cons line rest =>
    have hline : dashes line = depth := by
      have := List.head?_dropWhile_not (dashes · != depth) lines
      simpa only [hrest, List.head?_cons, bne_eq_false_iff_eq] using this
    simp only [run, List.foldl_cons, next_of_dashes_eq hline pass]

/-- A pass over the lines behind a parameter gives it what a pass one level deeper finds in its
region, and then reads on at the level as if no name were open. -/
theorem tree_run_nest (depth : Nat) (t : Tree) (name beside : Text) (lines : List Text) :
    ((nest t name beside start).run depth lines).tree =
      (run depth ⟨t.insert name (value beside (start.run (depth + 1) (region depth lines)).tree), []⟩
        lines).tree := by
  have hregion : ∀ line ∈ region depth lines, dashes line ≠ depth :=
    fun _ h => dashes_ne_of_mem_region h
  generalize htree : (start.run (depth + 1) (region depth lines)).tree = below
  conv_lhs => rw [← region_append_dropWhile depth lines, run_append, run_nest hregion]
  conv_rhs => rw [← region_append_dropWhile depth lines, run_append, run_of_dashes_ne hregion]
  rw [tree_run_dropWhile, nest, htree]

/-- **A pass at one level inserts the parameters of that level.** The induction is on the recursion
of the levels: the first of its two hypotheses is about the region below a parameter, one level
deeper. -/
theorem tree_run (depth : Nat) (lines : List Text) (t : Tree) :
    (run depth ⟨t, []⟩ lines).tree =
      (members depth lines).foldl (fun t (name, content) => t.insert name content) t := by
  induction depth, lines using members.induct generalizing t with
  | case1 depth => rw [members]; rfl
  | case2 depth line rest hline ih =>
    rw [members, hline]
    simp only [run, List.foldl_cons, next_of_lineAt?_none hline]
    exact ih t
  | case3 depth line rest found hline ihRegion ihRest =>
    rw [members, hline]
    simp only [run, List.foldl_cons, next_of_lineAt?_some hline]
    have hbelow : (start.run (depth + 1) (region depth rest)).tree =
        .ofList (members (depth + 1) (region depth rest)) := ihRegion .empty
    rw [← ihRest, ← hbelow]
    exact tree_run_nest depth t found.name found.beside rest

end Pass

/-- **The level by level reading is the one in a single pass**, at every depth and for all lines. -/
theorem tree_eq_onePass (depth : Nat) (lines : List Text) :
    tree depth lines = onePass depth lines := by
  rw [onePass, Pass.start, Pass.tree_run, tree, Tree.ofList]

end Parameter

end ShellDoc
