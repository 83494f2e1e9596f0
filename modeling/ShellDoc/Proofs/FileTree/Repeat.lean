import ShellDoc.Proofs.FileTree.Listing

/-!
# Setting the same nodes again

Of two nodes set at the same location the later one stays, and nodes at different locations do not
meet. So to set nodes one after another and then all of them again is to set them once
(`setAll_setAll`): not only is the same at each location, but the tree is the same.
-/

namespace ShellDoc.FileTree

variable {tree : FileTree} {location other : Location} {node : Node}
  {entries : List (Location × Node)} {nodes : List (Location × Node)}

/-! ## Two nodes -/

theorem put_put (location : Location) (first second : Node) (entries : List (Location × Node)) :
    put location second (put location first entries) = put location second entries := by
  induction entries with
  | nil => exact if_pos rfl
  | cons entry rest ih =>
    rw [put]
    split
    next h => rw [put, put, if_pos rfl, if_pos h]
    next h => rw [put, put, if_neg h, if_neg h, ih]

/-- The order of two nodes does not matter if one of them replaces another. -/
theorem put_comm (hne : location ≠ other) (hmem : location ∈ entries.map Prod.fst)
    (node node' : Node) :
    put other node' (put location node entries) = put location node (put other node' entries) := by
  induction entries with
  | nil => cases hmem
  | cons entry rest ih =>
    by_cases hlocation : entry.1 = location
    · have hother : ¬ entry.1 = other := fun h => hne (hlocation.symm.trans h)
      rw [put, if_pos hlocation, put, if_neg hne, put, if_neg hother, put, if_pos hlocation]
    · have hrest : location ∈ rest.map Prod.fst := by
        rcases List.mem_cons.mp hmem with hfirst | hrest
        · exact absurd hfirst.symm hlocation
        · exact hrest
      rw [put, if_neg hlocation]
      by_cases hother : entry.1 = other
      · rw [put, if_pos hother, put, if_pos hother, put, if_neg hne.symm]
      · rw [put, if_neg hother, put, if_neg hother, put, if_neg hlocation, ih hrest]

theorem put_of_lookup (h : entries.lookup location = some node) :
    put location node entries = entries := by
  induction entries with
  | nil => cases h
  | cons entry rest ih =>
    rw [List.lookup_cons] at h
    rw [put]
    split
    next hlocation =>
      rw [beq_iff_eq.mpr hlocation.symm] at h
      rw [← Option.some.inj h, ← hlocation]
    next hlocation =>
      rw [beq_eq_false_iff_ne.mpr (Ne.symm hlocation)] at h
      rw [ih h]

/-! ## Many nodes -/

/-- The tree with nodes set one after another. -/
def setAll (tree : FileTree) (nodes : List (Location × Node)) : FileTree :=
  nodes.foldl (fun tree (location, node) => tree.set location node) tree

theorem setAll_cons (tree : FileTree) (location : Location) (node : Node)
    (nodes : List (Location × Node)) :
    tree.setAll ((location, node) :: nodes) = (tree.set location node).setAll nodes :=
  rfl

theorem setAll_append (tree : FileTree) (nodes nodes' : List (Location × Node)) :
    tree.setAll (nodes ++ nodes') = (tree.setAll nodes).setAll nodes' :=
  List.foldl_append

theorem mem_locations_setAll :
    other ∈ (tree.setAll nodes).locations ↔
      other ∈ nodes.map Prod.fst ∨ other ∈ tree.locations := by
  induction nodes generalizing tree with
  | nil => simp [setAll]
  | cons first rest ih =>
    obtain ⟨location, node⟩ := first
    rw [setAll_cons, ih, mem_locations_set, List.map_cons, List.mem_cons, or_left_comm, or_assoc]

theorem lookup_setAll (h : location ∉ nodes.map Prod.fst) :
    (tree.setAll nodes).entries.lookup location = tree.entries.lookup location := by
  induction nodes generalizing tree with
  | nil => rfl
  | cons first rest ih =>
    obtain ⟨other, node⟩ := first
    rw [List.map_cons, List.mem_cons, not_or] at h
    obtain ⟨hne, hrest⟩ := h
    rw [setAll_cons, ih hrest, set, lookup_put, if_neg hne]

/-- What was set before at one of the locations leaves no trace. -/
theorem setAll_set (hmem : location ∈ tree.locations) (hnodes : location ∈ nodes.map Prod.fst)
    (node : Node) : (tree.set location node).setAll nodes = tree.setAll nodes := by
  induction nodes generalizing tree with
  | nil => cases hnodes
  | cons first rest ih =>
    obtain ⟨other, node'⟩ := first
    rw [setAll_cons, setAll_cons]
    by_cases h : location = other
    · subst h
      rw [set, set, put_put, set]
    · have hrest : location ∈ rest.map Prod.fst := (List.mem_cons.mp hnodes).resolve_left h
      have hcomm : (tree.set location node).set other node' =
          (tree.set other node').set location node := by
        rw [set, set, set, set, put_comm h hmem]
      rw [hcomm, ih (mem_locations_set.mpr (.inr hmem)) hrest]

/-- **To set the same nodes again changes nothing.** -/
theorem setAll_setAll (tree : FileTree) (nodes : List (Location × Node)) :
    (tree.setAll nodes).setAll nodes = tree.setAll nodes := by
  induction nodes generalizing tree with
  | nil => rfl
  | cons first rest ih =>
    obtain ⟨location, node⟩ := first
    rw [setAll_cons, setAll_cons]
    have hagain := ih (tree.set location node)
    by_cases hrest : location ∈ rest.map Prod.fst
    · have hmem : location ∈ ((tree.set location node).setAll rest).locations :=
        mem_locations_setAll.mpr (.inl hrest)
      rw [setAll_set hmem hrest, hagain]
    · have hlookup : ((tree.set location node).setAll rest).entries.lookup location = some node := by
        rw [lookup_setAll hrest, set, lookup_put, if_pos rfl]
      have hset : ((tree.set location node).setAll rest).set location node =
          (tree.set location node).setAll rest := by
        conv_lhs => rw [set, put_of_lookup hlookup]
      rw [hset, hagain]

end ShellDoc.FileTree
