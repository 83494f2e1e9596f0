import ShellDoc.Proofs.Source.Documented

/-!
# Spellings

The same file can be spelled in many ways: with empty segments, with dots, from the root. Where a
path leads depends on its components alone, if it leads anywhere (`locate_eq_foldl`). So two
spellings of a file with the same components are the same source: they read the same, and their
outputs have the same name.
-/

namespace ShellDoc

namespace Path

/-- The location that a component leads to from another. -/
def Component.follow (location : Location) : Component → Location
  | .root => []
  | .current => location
  | .parent => location.dropLast
  | .name text => location ++ [text]

/-- To enter segments one by one is to follow their components. -/
theorem foldl_enter_eq (location : Location) (segments : List Text) :
    segments.foldl FileTree.enter location =
      (segments.filterMap component?).foldl Component.follow location := by
  induction segments generalizing location with
  | nil => rfl
  | cons segment rest ih =>
    rw [List.foldl_cons, ih, FileTree.enter]
    by_cases hstay : segment = [] ∨ segment = ['.']
    · have hnone : component? segment = none := if_pos hstay
      rw [if_pos hstay, List.filterMap_cons_none hnone]
    · rw [if_neg hstay]
      by_cases hup : segment = ['.', '.']
      · have hparent : component? segment = some .parent := by
          rw [component?, if_neg hstay, if_pos hup]
        rw [if_pos hup, List.filterMap_cons_some hparent, List.foldl_cons, Component.follow]
      · have hname : component? segment = some (.name segment) := by
          rw [component?, if_neg hstay, if_neg hup]
        rw [if_neg hup, List.filterMap_cons_some hname, List.foldl_cons, Component.follow]

end Path

namespace FileTree

variable {tree : FileTree} {p q : Path} {location : Location}

/-! ## Where paths lead -/

theorem walk_eq_foldl {origin : Location} {segments : List Text}
    (h : tree.walk origin segments = .ok location) : location = segments.foldl enter origin := by
  induction segments generalizing origin with
  | nil => exact (Except.ok.inj h).symm
  | cons segment rest ih =>
    obtain ⟨_, _, _, hrest⟩ := walk_cons_eq_ok_iff.mp h
    exact ih hrest

/-- A path leads where its components lead. -/
theorem locate_eq_foldl (h : tree.locate p = .ok location) :
    location = p.components.foldl Path.Component.follow tree.workingDirectory := by
  obtain ⟨_, hwalk⟩ := locate_eq_ok_iff.mp h
  rw [walk_eq_foldl hwalk, Path.foldl_enter_eq, Path.components, start, List.foldl_append]
  split
  next => rfl
  next =>
    split
    next => rfl
    next => rfl

theorem locate_unique {other : Location} (h : p.components = q.components)
    (hp : tree.locate p = .ok location) (hq : tree.locate q = .ok other) : location = other := by
  rw [locate_eq_foldl hp, locate_eq_foldl hq, h]

/-- Two spellings of a file read the same. -/
theorem read_eq_of_components_eq (h : p.components = q.components) (hp : tree.isFile p = true)
    (hq : tree.isFile q = true) : tree.read p = tree.read q := by
  obtain ⟨location, content, hlocate, hnode⟩ := isFile_iff.mp hp
  obtain ⟨other, _, hother, _⟩ := isFile_iff.mp hq
  obtain rfl := locate_unique h hlocate hother
  rw [read_of_locate hlocate hnode, read_of_locate hother hnode]

end FileTree

/-! ## Sources -/

namespace Source

variable {tree : FileTree} {marker : Char} {p q : Path}

theorem fileName?_eq_of_components_eq (h : p.components = q.components) :
    p.fileName? = q.fileName? := by
  rw [Path.fileName?, Path.fileName?, h]

theorem outputName_eq_of_components_eq (h : p.components = q.components) :
    outputName p = outputName q := by
  rw [outputName, outputName, fileName?_eq_of_components_eq h]

theorem isShellSource_eq_of_components_eq (h : p.components = q.components) :
    isShellSource p = isShellSource q := by
  rw [isShellSource_eq, isShellSource_eq, fileName?_eq_of_components_eq h]

/-- Two spellings of a file have the same functions. -/
theorem functionsIn_eq_of_components_eq (h : p.components = q.components)
    (hp : tree.isFile p = true) (hq : tree.isFile q = true) :
    functionsIn tree marker p = functionsIn tree marker q := by
  rw [functionsIn, functionsIn, script?, script?, FileTree.read_eq_of_components_eq h hp hq]

theorem isDocumented_eq_of_components_eq (h : p.components = q.components)
    (hp : tree.isFile p = true) (hq : tree.isFile q = true) :
    isDocumented tree marker p = isDocumented tree marker q := by
  rw [isDocumented, isDocumented, isShellSource_eq_of_components_eq h,
    functionsIn_eq_of_components_eq h hp hq]

end Source

end ShellDoc
