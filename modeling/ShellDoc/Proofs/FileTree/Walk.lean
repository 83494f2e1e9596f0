import Mathlib.Data.List.Basic
import ShellDoc.FileTree
import ShellDoc.Proofs.Except

/-!
# Walks

What it takes for a path to lead somewhere. A walk passes through directories alone, so a path leads
to the same location in every tree that keeps the directories of an earlier one
(`KeepsDirectories.locate`). What is at that location may have changed. To write a file keeps the
directories, and all other files (`keepsDirectories_write`, `isFile_write`).

Rights belong to locations, and no change of a tree touches them. So all that two trees with the same
rights have to agree on is what is there (`allows_congr`, `mayPut_congr`).
-/

namespace ShellDoc.FileTree

variable {tree before after : FileTree} {p : Path} {location : Location}

/-! ## Nodes -/

theorem node?_nil (tree : FileTree) : tree.node? [] = some .directory :=
  if_pos rfl

theorem ne_nil_of_node?_eq_none (h : tree.node? location = none) : location ≠ [] := by
  rintro rfl
  rw [node?_nil] at h
  cases h

theorem lookup_put (location other : Location) (node : Node) (entries : List (Location × Node)) :
    (put location node entries).lookup other =
      if other = location then some node else entries.lookup other := by
  induction entries with
  | nil =>
    by_cases h : other = location
    · rw [put, List.lookup_cons, if_pos h, beq_iff_eq.mpr h]
    · rw [put, List.lookup_cons, if_neg h, beq_eq_false_iff_ne.mpr h]
  | cons entry rest ih =>
    obtain ⟨place, content⟩ := entry
    by_cases hplace : place = location
    · subst hplace
      rw [put, if_pos rfl, List.lookup_cons, List.lookup_cons]
      by_cases h : other = place
      · rw [if_pos h, beq_iff_eq.mpr h]
      · rw [if_neg h, beq_eq_false_iff_ne.mpr h]
    · rw [put, if_neg hplace, List.lookup_cons, List.lookup_cons, ih]
      by_cases h : other = place
      · have hother : other ≠ location := h ▸ hplace
        rw [beq_iff_eq.mpr h]
        exact (if_neg hother).symm
      · rw [beq_eq_false_iff_ne.mpr h]

/-- What is set is there, but for the root, and nothing else has changed. -/
theorem node?_set_eq (tree : FileTree) (location : Location) (node : Node) (other : Location) :
    (tree.set location node).node? other =
      if other ≠ [] ∧ other = location then some node else tree.node? other := by
  by_cases hroot : other = []
  · rw [if_neg (not_and_of_not_left _ (not_not_intro hroot)), hroot, node?_nil, node?_nil]
  · rw [node?, if_neg hroot, set, lookup_put, node?, if_neg hroot]
    simp [hroot]

/-- A node put at a location other than the root is there, and nothing else has changed. -/
theorem node?_set (h : location ≠ []) (tree : FileTree) (node : Node) (other : Location) :
    (tree.set location node).node? other =
      if other = location then some node else tree.node? other := by
  have hroot : other ≠ [] ∧ other = location ↔ other = location :=
    and_iff_right_of_imp fun hother => hother ▸ h
  rw [node?_set_eq]
  simp only [hroot]

/-! ## Rights -/

theorem allows_congr (h : after.denials = before.denials) (right : Right) (location : Location) :
    after.allows right location = before.allows right location := by
  rw [allows, allows, h]

/-- Where something is, its own right decides whether it may be written over. -/
theorem mayPut_of_node? (h : tree.node? location ≠ none) :
    tree.mayPut location = tree.allows .write location := by
  rw [mayPut, Option.isSome_iff_ne_none.mpr h, Bool.true_or, Bool.and_true]

/-- Whether something may be put at a location depends on whether something is there. -/
theorem mayPut_congr (hdenials : after.denials = before.denials)
    (hnode : after.node? location = none ↔ before.node? location = none) :
    after.mayPut location = before.mayPut location := by
  have hsome : (after.node? location).isSome = (before.node? location).isSome := by
    rw [Bool.eq_iff_iff, Option.isSome_iff_ne_none, Option.isSome_iff_ne_none, Ne, hnode]
  rw [mayPut, mayPut, allows_congr hdenials, allows_congr hdenials, hsome]

theorem tryPut_eq_ok_iff {node : Node} :
    tree.tryPut location node = .ok after ↔
      tree.mayPut location = true ∧ tree.set location node = after := by
  rw [tryPut]
  split
  next hmay => simp [hmay]
  next hmay => simp [hmay]

/-! ## Walks -/

/-- Where the walk along a path starts. -/
def start (tree : FileTree) (p : Path) : Location :=
  if p.isAbsolute then [] else tree.workingDirectory

theorem walk_cons_eq_ok_iff {origin : Location} {segment : Text} {rest : List Text} :
    tree.walk origin (segment :: rest) = .ok location ↔
      tree.node? origin = some .directory ∧ (segment ≠ [] → tree.allows .enter origin = true) ∧
        utf8Size segment ≤ 255 ∧ tree.walk (enter origin segment) rest = .ok location := by
  rw [walk]
  split
  next h => simp [h]
  next h => simp [h]
  next h =>
    split
    next hdenied => simp [hdenied]
    next hallowed =>
      have hallowed : segment ≠ [] → tree.allows .enter origin = true := by
        simpa using hallowed
      split
      next hsize => simp [Nat.not_le_of_gt hsize]
      next hsize =>
        rw [and_iff_right h, and_iff_right hallowed, and_iff_right (Nat.le_of_not_gt hsize)]

theorem walk_append_eq_ok_iff {origin : Location} {xs ys : List Text} :
    tree.walk origin (xs ++ ys) = .ok location ↔
      ∃ middle, tree.walk origin xs = .ok middle ∧ tree.walk middle ys = .ok location := by
  induction xs generalizing origin with
  | nil => simp [walk]
  | cons segment rest ih =>
    simp only [List.cons_append, walk_cons_eq_ok_iff, ih]
    constructor
    · rintro ⟨hdirectory, henter, hsize, middle, hxs, hys⟩
      exact ⟨middle, ⟨hdirectory, henter, hsize, hxs⟩, hys⟩
    · rintro ⟨middle, ⟨hdirectory, henter, hsize, hxs⟩, hys⟩
      exact ⟨hdirectory, henter, hsize, middle, hxs, hys⟩

theorem locate_eq_ok_iff :
    tree.locate p = .ok location ↔
      check p = .ok () ∧ tree.walk (tree.start p) p.segments = .ok location := by
  show (check p >>= fun _ => tree.walk (tree.start p) p.segments) = .ok location ↔ _
  rw [bind_eq_ok_iff]
  exact ⟨fun ⟨_, h⟩ => h, fun h => ⟨(), h⟩⟩

theorem check_eq_ok_iff :
    check p = .ok () ↔ '\x00' ∉ p.text ∧ p.text ≠ [] ∧ utf8Size p.text ≤ 4095 := by
  rw [check]
  split
  next hzero =>
    have hzero : '\x00' ∈ p.text := List.contains_iff_mem.mp hzero
    simp [hzero]
  next hzero =>
    have hzero : '\x00' ∉ p.text := fun h => hzero (List.contains_iff_mem.mpr h)
    split
    next hnil => simp [hnil]
    next hnil =>
      split
      next hsize => simp [Nat.not_le_of_gt hsize]
      next hsize => simp [hzero, hnil, Nat.le_of_not_gt hsize]

theorem lookup_eq_ok_iff {node : Node} :
    tree.lookup p = .ok node ↔
      ∃ location, tree.locate p = .ok location ∧ tree.node? location = some node := by
  rw [lookup, bind_eq_ok_iff]
  refine exists_congr fun location => and_congr_right fun _ => ?_
  cases tree.node? location with
  | none => simp
  | some found => simp [pure, Except.pure]

theorem isFile_iff :
    tree.isFile p = true ↔
      ∃ location content, tree.locate p = .ok location ∧
        tree.node? location = some (.file content) := by
  have hlookup : tree.isFile p = true ↔ ∃ content, tree.lookup p = .ok (.file content) := by
    rw [isFile]
    split
    next content h => simp [h]
    next h => simpa using h
  simp only [hlookup, lookup_eq_ok_iff]
  exact exists_comm

theorem isDirectory_iff :
    tree.isDirectory p = true ↔
      ∃ location, tree.locate p = .ok location ∧ tree.node? location = some .directory := by
  rw [← lookup_eq_ok_iff, isDirectory]
  split
  next h => simp [h]
  next h => simpa using h

theorem node?_of_isDirectory (hlocate : tree.locate p = .ok location)
    (h : tree.isDirectory p = true) : tree.node? location = some .directory := by
  obtain ⟨other, hother, hnode⟩ := isDirectory_iff.mp h
  obtain rfl : location = other := Except.ok.inj (hlocate.symm.trans hother)
  exact hnode

theorem isDirectory_eq_false_of_isFile (h : tree.isFile p = true) : tree.isDirectory p = false := by
  obtain ⟨location, content, hlocate, hnode⟩ := isFile_iff.mp h
  refine Bool.eq_false_iff.mpr fun hdirectory => ?_
  rw [node?_of_isDirectory hlocate hdirectory] at hnode
  cases hnode

/-- Whether a path leads to a file with the given bytes, be it one that may be read or not. -/
def Holds (tree : FileTree) (p : Path) (content : ByteArray) : Prop :=
  tree.lookup p = .ok (.file content)

theorem openToRead_eq_ok_iff {node : Node} :
    tree.openToRead p = .ok node ↔ ∃ location, tree.locate p = .ok location ∧
      tree.node? location = some node ∧ tree.allows .read location = true := by
  rw [openToRead, bind_eq_ok_iff]
  refine exists_congr fun location => and_congr_right fun _ => ?_
  cases tree.node? location with
  | none => simp
  | some found => cases tree.allows .read location <;> simp [pure, Except.pure]

/-- What reading a file gives depends on its bytes and on whether it may be read. -/
theorem read_of_locate {content : ByteArray} (hlocate : tree.locate p = .ok location)
    (hnode : tree.node? location = some (.file content)) :
    tree.read p =
      if tree.allows .read location = true then .ok content else .error .permissionDenied := by
  rw [read, openToRead, hlocate]
  dsimp only [bind, Except.bind]
  rw [hnode]
  dsimp only
  cases tree.allows .read location <;> rfl

/-- Where no directory is, to write a file is to put it there. -/
theorem write_eq_tryPut {content : ByteArray} (hlocate : tree.locate p = .ok location)
    (hnode : tree.node? location ≠ some .directory) :
    tree.write p content = tree.tryPut location (.file content) := by
  rw [write, hlocate]
  dsimp only [bind, Except.bind]
  split
  next h => exact absurd h hnode
  next => rfl

/-- A file is written where its path leads to, unless a directory is there or it may not be put
there. -/
theorem write_eq_ok_iff {content : ByteArray} :
    tree.write p content = .ok after ↔ ∃ location, tree.locate p = .ok location ∧
      tree.node? location ≠ some .directory ∧ tree.mayPut location = true ∧
      tree.set location (.file content) = after := by
  rw [write, bind_eq_ok_iff]
  refine exists_congr fun location => and_congr_right fun _ => ?_
  split
  next hnode => simp [hnode]
  next hnode => rw [tryPut_eq_ok_iff, and_iff_right hnode]

/-! ## Trees that keep directories -/

/-- Whether all that was a directory in a tree is one in a later tree. -/
structure KeepsDirectories (before after : FileTree) : Prop where
  /-- Relative paths start at the same place. -/
  workingDirectory : after.workingDirectory = before.workingDirectory
  /-- The same is denied. -/
  denials : after.denials = before.denials
  /-- Every directory is still there. -/
  directory : ∀ location, before.node? location = some .directory →
    after.node? location = some .directory

theorem KeepsDirectories.walk (h : KeepsDirectories before after) {origin : Location}
    {segments : List Text} (hwalk : before.walk origin segments = .ok location) :
    after.walk origin segments = .ok location := by
  induction segments generalizing origin with
  | nil => exact hwalk
  | cons segment rest ih =>
    obtain ⟨hdirectory, henter, hsize, hrest⟩ := walk_cons_eq_ok_iff.mp hwalk
    rw [← allows_congr h.denials] at henter
    exact walk_cons_eq_ok_iff.mpr ⟨h.directory _ hdirectory, henter, hsize, ih hrest⟩

/-- A path still leads where it led before. -/
theorem KeepsDirectories.locate (h : KeepsDirectories before after)
    (hlocate : before.locate p = .ok location) : after.locate p = .ok location := by
  obtain ⟨hcheck, hwalk⟩ := locate_eq_ok_iff.mp hlocate
  have hstart : after.start p = before.start p := by
    rw [start, start, h.workingDirectory]
  exact locate_eq_ok_iff.mpr ⟨hcheck, hstart ▸ h.walk hwalk⟩

theorem KeepsDirectories.isDirectory (h : KeepsDirectories before after)
    (hdirectory : before.isDirectory p = true) : after.isDirectory p = true := by
  obtain ⟨location, hlocate, hnode⟩ := isDirectory_iff.mp hdirectory
  exact isDirectory_iff.mpr ⟨location, h.locate hlocate, h.directory location hnode⟩

/-! ## What a written file leaves -/

theorem node?_write {content : ByteArray} (h : tree.write p content = .ok after) :
    ∃ location, tree.locate p = .ok location ∧ tree.node? location ≠ some .directory ∧
      ∀ other, after.node? other =
        if other = location then some (.file content) else tree.node? other := by
  obtain ⟨location, hlocate, hnode, _, rfl⟩ := write_eq_ok_iff.mp h
  have hne : location ≠ [] := by
    rintro rfl
    exact hnode (node?_nil tree)
  exact ⟨location, hlocate, hnode, node?_set hne tree _⟩

theorem keepsDirectories_write {content : ByteArray} (h : tree.write p content = .ok after) :
    KeepsDirectories tree after := by
  obtain ⟨location, _, hnode, hafter⟩ := node?_write h
  refine ⟨?_, ?_, fun other hother => ?_⟩
  · obtain ⟨_, _, _, _, rfl⟩ := write_eq_ok_iff.mp h
    rfl
  · obtain ⟨_, _, _, _, rfl⟩ := write_eq_ok_iff.mp h
    rfl
  · have hne : other ≠ location := by
      rintro rfl
      exact hnode hother
    rw [hafter, if_neg hne, hother]

/-- What was a file is still one, though perhaps with other bytes. -/
theorem isFile_write {content : ByteArray} (h : tree.write p content = .ok after)
    {q : Path} (hfile : tree.isFile q = true) : after.isFile q = true := by
  obtain ⟨place, old, hplace, hold⟩ := isFile_iff.mp hfile
  obtain ⟨location, _, _, hafter⟩ := node?_write h
  have hthere := (keepsDirectories_write h).locate hplace
  by_cases hwritten : place = location
  · exact isFile_iff.mpr ⟨place, content, hthere, by rw [hafter, if_pos hwritten]⟩
  · exact isFile_iff.mpr ⟨place, old, hthere, by rw [hafter, if_neg hwritten, hold]⟩

end ShellDoc.FileTree
