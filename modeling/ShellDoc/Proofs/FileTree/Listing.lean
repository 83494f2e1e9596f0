import ShellDoc.Proofs.FileTree.Entry
import ShellDoc.Proofs.Text

/-!
# Listings

What a directory lists are the entries of the tree below its location (`mem_namesUnder_iff`). A new
entry is listed by the directories above it and changes no other listing (`mem_locations_set`).

Names that lead to a location never need more than one segment each, if the working directory has
such names (`isLocation_of_locate`).
-/

namespace ShellDoc

namespace FileTree

variable {tree : FileTree} {p : Path} {location other : Location} {names : List Text} {name : Text}

/-- The locations of the entries of a tree. -/
def locations (tree : FileTree) : List Location :=
  tree.entries.map Prod.fst

theorem namesBelow?_eq_some_iff :
    namesBelow? location other = some names ↔ other = location ++ names ∧ names ≠ [] := by
  rw [namesBelow?, Option.filter_eq_some_iff, List.isPrefixOf?_eq_some_iff_append_eq, eq_comm]
  simp

theorem mem_descendants_iff :
    names ∈ tree.descendants location ↔
      names ≠ [] ∧ location ++ names ∈ tree.locations ∧ tree.lists location names = true := by
  rw [descendants, List.mem_mergeSort, List.mem_filter, List.mem_filterMap, locations, ← and_assoc]
  refine and_congr_left fun _ => ?_
  constructor
  · rintro ⟨⟨below, node⟩, hentry, hnames⟩
    obtain ⟨rfl, hne⟩ := namesBelow?_eq_some_iff.mp hnames
    exact ⟨hne, List.mem_map.mpr ⟨_, hentry, rfl⟩⟩
  · rintro ⟨hne, hmem⟩
    obtain ⟨⟨below, node⟩, hentry, rfl⟩ := List.mem_map.mp hmem
    exact ⟨_, hentry, namesBelow?_eq_some_iff.mpr ⟨rfl, hne⟩⟩

/-- What listings find depends on the rights alone. -/
theorem lists_congr {before after : FileTree} (h : after.denials = before.denials)
    (location : Location) (names : List Text) :
    after.lists location names = before.lists location names := by
  induction names generalizing location with
  | nil => rfl
  | cons name rest ih => rw [lists, lists, allows_congr h, allows_congr h, ih]

/-- The names under a directory are those of the entries below its location that listings find. -/
theorem mem_namesUnder_iff :
    names ∈ tree.namesUnder p ↔ ∃ location, tree.locate p = .ok location ∧
      tree.node? location = some .directory ∧ names ≠ [] ∧
      location ++ names ∈ tree.locations ∧ tree.lists location names = true := by
  rw [namesUnder]
  split
  next location hdirectory hlocate =>
    have hnode := node?_of_isDirectory hlocate hdirectory
    rw [mem_descendants_iff]
    constructor
    · exact fun h => ⟨location, hlocate, hnode, h⟩
    · rintro ⟨other, hother, _, h⟩
      obtain rfl : location = other := Except.ok.inj (hlocate.symm.trans hother)
      exact h
  next hnot =>
    refine iff_of_false List.not_mem_nil ?_
    rintro ⟨location, hlocate, hnode, _⟩
    exact hnot location (isDirectory_iff.mpr ⟨location, hlocate, hnode⟩) hlocate

theorem mem_entryNames_iff : name ∈ tree.entryNames p ↔ [name] ∈ tree.namesUnder p := by
  rw [entryNames, List.mem_filterMap]
  constructor
  · rintro ⟨names, hnames, hname⟩
    split at hname
    next => exact Option.some.inj hname ▸ hnames
    next => cases hname
  · exact fun h => ⟨[name], h, rfl⟩

/-- A directory is listed if it may be read. -/
theorem list_eq_ok_iff {listed : List Text} :
    tree.list p = .ok listed ↔ listed = tree.entryNames p ∧ ∃ location,
      tree.locate p = .ok location ∧ tree.node? location = some .directory ∧
        tree.allows .read location = true := by
  rw [← openToRead_eq_ok_iff, list, bind_eq_ok_iff]
  constructor
  · rintro ⟨node, hlookup, h⟩
    cases node with
    | file => cases h
    | directory =>
      obtain ⟨opened, hopen, h⟩ := bind_eq_ok_iff.mp h
      obtain ⟨location, hlocate, hnode, hread⟩ := openToRead_eq_ok_iff.mp hopen
      obtain ⟨other, hother, hdirectory⟩ := lookup_eq_ok_iff.mp hlookup
      obtain rfl : location = other := Except.ok.inj (hlocate.symm.trans hother)
      exact ⟨(Except.ok.inj h).symm,
        openToRead_eq_ok_iff.mpr ⟨location, hlocate, hdirectory, hread⟩⟩
  · rintro ⟨rfl, hopen⟩
    obtain ⟨location, hlocate, hnode, hread⟩ := openToRead_eq_ok_iff.mp hopen
    exact ⟨.directory, lookup_eq_ok_iff.mpr ⟨location, hlocate, hnode⟩,
      bind_eq_ok_iff.mpr ⟨.directory, hopen, rfl⟩⟩

theorem isListable_iff :
    tree.isListable p = true ↔ ∃ location, tree.locate p = .ok location ∧
      tree.node? location = some .directory ∧ tree.allows .read location = true := by
  rw [isListable]
  split
  next listed h => exact iff_of_true rfl (list_eq_ok_iff.mp h).2
  next cause h =>
    refine iff_of_false Bool.false_ne_true fun hopen => ?_
    rw [list_eq_ok_iff.mpr ⟨rfl, hopen⟩] at h
    cases h

theorem list_eq_ok (h : tree.isListable p = true) : tree.list p = .ok (tree.entryNames p) :=
  list_eq_ok_iff.mpr ⟨rfl, isListable_iff.mp h⟩

theorem isDirectory_of_isListable (h : tree.isListable p = true) : tree.isDirectory p = true := by
  obtain ⟨location, hlocate, hnode, _⟩ := isListable_iff.mp h
  exact isDirectory_iff.mpr ⟨location, hlocate, hnode⟩

/-- A directory that may not be listed cannot be listed. -/
theorem list_of_isDirectory (h : tree.isDirectory p = true) :
    tree.list p =
      if tree.isListable p = true then .ok (tree.entryNames p) else .error .permissionDenied := by
  split
  next hlistable => exact list_eq_ok hlistable
  next hlistable =>
    obtain ⟨location, hlocate, hnode⟩ := isDirectory_iff.mp h
    have hdenied : tree.allows .read location = false := by
      refine Bool.eq_false_iff.mpr fun hread => hlistable ?_
      exact isListable_iff.mpr ⟨location, hlocate, hnode, hread⟩
    rw [list, lookup_eq_ok_iff.mpr ⟨location, hlocate, hnode⟩, openToRead, hlocate]
    simp [bind, Except.bind, hnode, hdenied]

/-- Only directories that may be listed have names under them. -/
theorem isListable_of_mem_namesUnder (h : names ∈ tree.namesUnder p) :
    tree.isListable p = true := by
  obtain ⟨location, hlocate, hnode, hne, _, hlists⟩ := mem_namesUnder_iff.mp h
  obtain ⟨name, rest, rfl⟩ := List.exists_cons_of_ne_nil hne
  rw [lists, Bool.and_eq_true, Bool.and_eq_true] at hlists
  exact isListable_iff.mpr ⟨location, hlocate, hnode, hlists.1.1⟩

theorem isDirectory_of_mem_namesUnder (h : names ∈ tree.namesUnder p) :
    tree.isDirectory p = true :=
  isDirectory_of_isListable (isListable_of_mem_namesUnder h)

theorem ne_nil_of_mem_namesUnder (h : names ∈ tree.namesUnder p) : names ≠ [] := by
  obtain ⟨_, _, _, hne, _⟩ := mem_namesUnder_iff.mp h
  exact hne

/-- Where nothing is, there is no entry. -/
theorem node?_eq_none_iff :
    tree.node? location = none ↔ location ≠ [] ∧ location ∉ tree.locations := by
  rw [node?]
  split
  next hroot => exact iff_of_false (Option.some_ne_none _) fun h => h.1 hroot
  next hroot =>
    rw [List.lookup_eq_none_iff, locations, List.mem_map]
    refine ⟨fun h => ⟨hroot, ?_⟩, fun h entry hentry => ?_⟩
    · rintro ⟨entry, hentry, rfl⟩
      exact absurd (h entry hentry) (by simp)
    · rw [bne_iff_ne]
      exact fun hlocation => h.2 ⟨entry, hentry, hlocation.symm⟩

theorem mem_locations_of_node? {node : Node} (hne : location ≠ [])
    (h : tree.node? location = some node) : location ∈ tree.locations := by
  by_contra hunlisted
  rw [node?_eq_none_iff.mpr ⟨hne, hunlisted⟩] at h
  cases h

/-- Nothing is listed that was not, but what is set where nothing was. -/
theorem locations_set (tree : FileTree) (location : Location) (node : Node) :
    (tree.set location node).locations =
      if location ∈ tree.locations then tree.locations else tree.locations ++ [location] := by
  rw [locations, locations, set]
  generalize tree.entries = entries
  induction entries with
  | nil => rfl
  | cons entry rest ih =>
    rw [put]
    by_cases hfirst : entry.1 = location
    · rw [if_pos hfirst, List.map_cons, List.map_cons, hfirst, if_pos List.mem_cons_self]
    · rw [if_neg hfirst, List.map_cons, List.map_cons, ih]
      by_cases hrest : location ∈ rest.map Prod.fst
      · rw [if_pos hrest, if_pos (List.mem_cons_of_mem _ hrest)]
      · have hnone : location ∉ entry.1 :: rest.map Prod.fst := by
          rw [List.mem_cons, not_or]
          exact ⟨Ne.symm hfirst, hrest⟩
        rw [if_neg hrest, if_neg hnone, List.cons_append]

theorem mem_locations_set {node : Node} :
    other ∈ (tree.set location node).locations ↔ other = location ∨ other ∈ tree.locations := by
  rw [locations_set]
  split
  next hlisted => exact ⟨.inr, fun h => h.elim (fun heq => heq ▸ hlisted) id⟩
  next => rw [List.mem_append, List.mem_singleton, or_comm]

/-! ## Names of locations -/

/-- Whether all names of a location are ones that entries may have. -/
def IsLocation (location : Location) : Prop :=
  ∀ name ∈ location, IsEntryName name

theorem IsLocation.enter (h : IsLocation location) {segment : Text} (hsegment : '/' ∉ segment) :
    IsLocation (FileTree.enter location segment) := by
  rw [FileTree.enter]
  split
  next => exact h
  next hstay =>
    split
    next => exact fun name hname => h name ((List.dropLast_sublist _).subset hname)
    next hup =>
      obtain ⟨hnil, hdot⟩ := not_or.mp hstay
      exact List.forall_mem_append.mpr
        ⟨h, List.forall_mem_singleton.mpr ⟨hsegment, hnil, hdot, hup⟩⟩

theorem IsLocation.walk {origin : Location} (h : IsLocation origin) {segments : List Text}
    (hsegments : ∀ segment ∈ segments, '/' ∉ segment)
    (hwalk : tree.walk origin segments = .ok location) : IsLocation location := by
  induction segments generalizing origin with
  | nil => exact Except.ok.inj hwalk ▸ h
  | cons segment rest ih =>
    obtain ⟨hsegment, hrest⟩ := List.forall_mem_cons.mp hsegments
    obtain ⟨_, _, _, hwalk⟩ := walk_cons_eq_ok_iff.mp hwalk
    exact ih (h.enter hsegment) hrest hwalk

/-- A path leads to names that entries may have. -/
theorem isLocation_of_locate (h : IsLocation tree.workingDirectory)
    (hlocate : tree.locate p = .ok location) : IsLocation location := by
  obtain ⟨_, hwalk⟩ := locate_eq_ok_iff.mp hlocate
  refine IsLocation.walk ?_ (Text.not_mem_of_mem_splitOn '/' p.text) hwalk
  rw [start]
  split
  next => exact List.forall_mem_nil _
  next => exact h

end FileTree

open FileTree

namespace Path

variable {p : Path} {names : List Text}

/-! ## Paths with several names joined -/

theorem isAbsolute_eq_false (h : p.segments.head? ≠ some []) : p.isAbsolute = false := by
  refine Bool.eq_false_iff.mpr fun habsolute => h ?_
  obtain ⟨rest, hrest⟩ := List.head?_eq_some_iff.mp (eq_of_beq habsolute)
  have hsegments := segments_slash [] rest
  rw [List.nil_append, ← hrest] at hsegments
  rw [hsegments]
  rfl

theorem segments_join_names (hnames : IsLocation names) (hne : names ≠ []) :
    (⟨Text.join ['/'] names⟩ : Path).segments = names :=
  List.splitOn_intercalate '/' (fun name hname => (hnames name hname).noSlash) hne

theorem component?_of_isEntryName {name : Text} (h : IsEntryName name) :
    component? name = some (.name name) := by
  rw [component?, if_neg (not_or.mpr ⟨h.ne_nil, h.ne_dot⟩), if_neg h.ne_dots]

theorem filterMap_component?_names (hnames : IsLocation names) :
    names.filterMap component? = names.map .name := by
  rw [← List.filterMap_eq_map]
  exact List.filterMap_congr fun name hname => component?_of_isEntryName (hnames name hname)

theorem components_join_names (hnames : IsLocation names) (hne : names ≠ []) :
    (⟨Text.join ['/'] names⟩ : Path).components = names.map .name := by
  obtain ⟨first, rest, rfl⟩ := List.exists_cons_of_ne_nil hne
  have hfirst := hnames first List.mem_cons_self
  have hsegments := segments_join_names hnames hne
  have hrelative : (⟨Text.join ['/'] (first :: rest)⟩ : Path).isAbsolute = false := by
    refine isAbsolute_eq_false ?_
    rw [hsegments]
    exact fun h => hfirst.ne_nil (Option.some.inj h)
  have hdot : ¬ (first :: rest).head? = some ['.'] := fun h => hfirst.ne_dot (Option.some.inj h)
  rw [components, hrelative, hsegments, if_neg Bool.false_ne_true, if_neg hdot, List.nil_append,
    filterMap_component?_names hnames]

theorem components_join (hp : p.text ≠ []) (hnames : IsLocation names) (hne : names ≠ []) :
    (p.join (Text.join ['/'] names)).components = p.components ++ names.map .name := by
  obtain ⟨inner, hinner, hjoined, hsegments⟩ := segments_join_append hp (Text.join ['/'] names)
  rw [segments_join_names hnames hne] at hjoined
  have hhead : (inner ++ names).head? = p.segments.head? := by
    rw [List.head?_append_of_ne_nil _ hinner]
    rcases hsegments with hsegments | hsegments
    · rw [hsegments]
    · rw [hsegments, List.head?_append_of_ne_nil _ hinner]
  have hmap : (inner ++ names).filterMap component? =
      p.segments.filterMap component? ++ names.map .name := by
    rw [List.filterMap_append, filterMap_component?_names hnames]
    rcases hsegments with hsegments | hsegments
    · rw [hsegments]
    · rw [hsegments, List.filterMap_append]
      exact congrArg (· ++ names.map Component.name) (List.append_nil _).symm
  rw [components, isAbsolute_join hp, hjoined, hhead, hmap, ← List.append_assoc, components]

/-- The path of an entry has one component more than that of the directory. -/
theorem components_join_name {name : Text} (hname : IsEntryName name) (p : Path) :
    (p.join name).components = p.components ++ [.name name] := by
  have hnames : IsLocation [name] := List.forall_mem_singleton.mpr hname
  have hne := List.cons_ne_nil name []
  obtain ⟨text⟩ := p
  by_cases hp : text = []
  · have hjoin := components_join_names hnames hne
    rw [Text.join_singleton] at hjoin
    rw [join, if_pos (.inl hp), hp, List.nil_append, hjoin]
    rfl
  · have hjoin := components_join (p := ⟨text⟩) hp hnames hne
    rwa [Text.join_singleton] at hjoin

theorem fileName?_join {name : Text} (hname : IsEntryName name) (p : Path) :
    (p.join name).fileName? = some name := by
  rw [fileName?, components_join_name hname, List.getLast?_concat]

end Path

end ShellDoc
