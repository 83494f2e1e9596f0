import ShellDoc.Proofs.FileTree.Walk

/-!
# Entries of directories

Where the path of an entry leads: to the entry's name below where the path of the directory leads
(`locate_join_eq_ok_iff`). And the other way round, the name of the file that a path leads to is the
last name of its location (`exists_parent_of_fileName?`).
-/

namespace ShellDoc

/-! ## Segments -/

namespace Path

variable {p : Path} {name : Text}

theorem segments_slash (t u : Text) :
    (⟨t ++ '/' :: u⟩ : Path).segments = (⟨t⟩ : Path).segments ++ (⟨u⟩ : Path).segments :=
  List.splitOnP_append_cons t u rfl

theorem segments_of_not_mem (h : '/' ∉ name) : (⟨name⟩ : Path).segments = [name] := by
  have hpieces : ∀ piece ∈ [name], '/' ∉ piece := by simpa using h
  have hsplit := List.splitOn_intercalate '/' hpieces (List.cons_ne_nil _ _)
  simpa [segments] using hsplit

theorem segments_ne_nil (p : Path) : p.segments ≠ [] :=
  List.splitOn_ne_nil '/' p.text

/-- What is joined to a path stands behind the segments of the path, but for the empty one at their
end if there is one. -/
theorem segments_join_append (hp : p.text ≠ []) (t : Text) :
    ∃ inner, inner ≠ [] ∧ (p.join t).segments = inner ++ (⟨t⟩ : Path).segments ∧
      (p.segments = inner ∨ p.segments = inner ++ [[]]) := by
  by_cases hlast : p.text.getLast? = some '/'
  · obtain ⟨u, hu⟩ := List.getLast?_eq_some_iff.mp hlast
    refine ⟨(⟨u⟩ : Path).segments, segments_ne_nil _, ?_, .inr ?_⟩
    · rw [join, if_pos (.inr hlast), hu, List.append_assoc, List.singleton_append, segments_slash]
    · have hsegments := segments_slash u []
      rwa [← hu] at hsegments
  · refine ⟨p.segments, segments_ne_nil p, ?_, .inl rfl⟩
    rw [join, if_neg (not_or.mpr ⟨hp, hlast⟩), segments_slash]

/-- An entry's name stands behind the segments of the directory. -/
theorem segments_join (hp : p.text ≠ []) (hname : '/' ∉ name) :
    ∃ inner, (p.join name).segments = inner ++ [name] ∧
      (p.segments = inner ∨ p.segments = inner ++ [[]]) := by
  obtain ⟨inner, _, hjoined, hinner⟩ := segments_join_append hp name
  exact ⟨inner, by rw [hjoined, segments_of_not_mem hname], hinner⟩

theorem text_join_ne_nil (hp : p.text ≠ []) : (p.join name).text ≠ [] := by
  rw [join]
  split
  · exact List.append_ne_nil_of_left_ne_nil hp _
  · exact List.append_ne_nil_of_left_ne_nil hp _

theorem mem_text_join {c : Char} (h : c ∈ (p.join name).text) :
    c ∈ p.text ∨ c = '/' ∨ c ∈ name := by
  rw [join] at h
  split at h
  · exact (List.mem_append.mp h).imp_right .inr
  · exact (List.mem_append.mp h).imp_right List.mem_cons.mp

theorem isAbsolute_join (hp : p.text ≠ []) : (p.join name).isAbsolute = p.isAbsolute := by
  rw [join]
  split
  · rw [isAbsolute, isAbsolute, List.head?_append_of_ne_nil _ hp]
  · rw [isAbsolute, isAbsolute, List.head?_append_of_ne_nil _ hp]

/-- Entries with different names have different paths. -/
theorem join_injective (p : Path) : Function.Injective p.join := by
  intro name other h
  rw [join, join] at h
  split at h
  · exact List.append_cancel_left (Path.mk.inj h)
  · exact (List.cons.inj (List.append_cancel_left (Path.mk.inj h))).2

/-- The last segment gives the last component, if it gives one. -/
theorem getLast?_components {inner : List Text} {segment : Text} {c : Component}
    (h : p.segments = inner ++ [segment]) (hc : component? segment = some c) :
    p.components.getLast? = some c := by
  have hlast : p.segments.filterMap component? = inner.filterMap component? ++ [c] := by
    rw [h, List.filterMap_append, List.filterMap_cons_some hc, List.filterMap_nil]
  rw [components, hlast, ← List.append_assoc]
  exact List.getLast?_concat

/-- The name of a file is one of the segments of its path. -/
theorem mem_segments_of_fileName? (h : p.fileName? = some name) : name ∈ p.segments := by
  have hlast : p.components.getLast? = some (.name name) := by
    rw [fileName?] at h
    split at h
    next hlast => rw [hlast, Option.some.inj h]
    next => cases h
  have hmem := List.mem_of_getLast? hlast
  rw [components, List.mem_append] at hmem
  rcases hmem with hstart | hsegment
  · split at hstart
    · cases hstart with | tail _ h => cases h
    · split at hstart
      · cases hstart with | tail _ h => cases h
      · cases hstart
  · obtain ⟨segment, hsegment, hcomponent⟩ := List.mem_filterMap.mp hsegment
    rw [component?] at hcomponent
    split at hcomponent
    · cases hcomponent
    · split at hcomponent
      · cases hcomponent
      · cases hcomponent
        exact hsegment

end Path

/-! ## Locations -/

namespace FileTree

variable {tree : FileTree} {p : Path} {location : Location} {name : Text}

/-- Whether a text may be the name of an entry: it leads down from a directory, and into no other
segment. -/
structure IsEntryName (name : Text) : Prop where
  noSlash : '/' ∉ name
  ne_nil : name ≠ []
  ne_dot : name ≠ ['.']
  ne_dots : name ≠ ['.', '.']

theorem IsEntryName.enter (h : IsEntryName name) (location : Location) :
    FileTree.enter location name = location ++ [name] := by
  rw [FileTree.enter, if_neg (not_or.mpr ⟨h.ne_nil, h.ne_dot⟩), if_neg h.ne_dots]

/-- The path of an entry leads below the directory and nowhere else, if it is within the limits and
the directory may be entered. -/
theorem locate_join_eq_ok_iff {other : Location} (hlocate : tree.locate p = .ok location)
    (hnode : tree.node? location = some .directory) (hname : IsEntryName name) :
    tree.locate (p.join name) = .ok other ↔
      check (p.join name) = .ok () ∧ tree.allows .enter location = true ∧ utf8Size name ≤ 255 ∧
        other = location ++ [name] := by
  obtain ⟨hcheck, hwalk⟩ := locate_eq_ok_iff.mp hlocate
  have hp := (check_eq_ok_iff.mp hcheck).2.1
  obtain ⟨inner, hjoined, hinner⟩ := Path.segments_join hp hname.noSlash
  have hstart : tree.start (p.join name) = tree.start p := by
    rw [start, start, Path.isAbsolute_join hp]
  have hdirectory : tree.walk (tree.start p) inner = .ok location := by
    rcases hinner with hinner | hinner
    · rwa [hinner] at hwalk
    · -- The empty segment behind the last slash stays in the directory.
      rw [hinner] at hwalk
      obtain ⟨middle, hmiddle, hempty⟩ := walk_append_eq_ok_iff.mp hwalk
      obtain ⟨_, _, _, hrest⟩ := walk_cons_eq_ok_iff.mp hempty
      obtain rfl : middle = location := Except.ok.inj hrest
      exact hmiddle
  rw [locate_eq_ok_iff, hstart, hjoined, walk_append_eq_ok_iff]
  refine and_congr_right fun _ => ?_
  constructor
  · rintro ⟨middle, hmiddle, hlast⟩
    obtain rfl : location = middle := Except.ok.inj (hdirectory.symm.trans hmiddle)
    obtain ⟨_, henter, hsize, hother⟩ := walk_cons_eq_ok_iff.mp hlast
    rw [hname.enter] at hother
    exact ⟨henter hname.ne_nil, hsize, (Except.ok.inj hother).symm⟩
  · rintro ⟨henter, hsize, rfl⟩
    exact ⟨location, hdirectory,
      walk_cons_eq_ok_iff.mpr ⟨hnode, fun _ => henter, hsize, by rw [hname.enter, walk]⟩⟩

theorem locate_join (hlocate : tree.locate p = .ok location)
    (hnode : tree.node? location = some .directory) (henter : tree.allows .enter location = true)
    (hname : IsEntryName name) (hsize : utf8Size name ≤ 255)
    (hcheck : check (p.join name) = .ok ()) :
    tree.locate (p.join name) = .ok (location ++ [name]) :=
  (locate_join_eq_ok_iff hlocate hnode hname).mpr ⟨hcheck, henter, hsize, rfl⟩

theorem utf8Size_append (t u : Text) : utf8Size (t ++ u) = utf8Size t + utf8Size u := by
  have hshift : ∀ (n : Nat) (u : Text), u.foldl (fun size c => size + c.utf8Size) n =
      n + u.foldl (fun size c => size + c.utf8Size) 0 := by
    intro n u
    induction u generalizing n with
    | nil => rfl
    | cons c rest ih =>
      rw [List.foldl_cons, ih, List.foldl_cons, ih (0 + _), Nat.zero_add, Nat.add_assoc]
  rw [utf8Size, List.foldl_append, hshift, ← utf8Size, ← utf8Size]

theorem utf8Size_replicate (k : Nat) (c : Char) :
    utf8Size (List.replicate k c) = k * c.utf8Size := by
  induction k with
  | zero => rw [Nat.zero_mul]; rfl
  | succ k ih =>
    have hlast : utf8Size [c] = c.utf8Size := Nat.zero_add _
    rw [List.replicate_succ', utf8Size_append, ih, hlast, Nat.succ_mul]

theorem check_of_check_join (hp : p.text ≠ []) (h : check (p.join name) = .ok ()) :
    check p = .ok () := by
  obtain ⟨hzero, _, hsize⟩ := check_eq_ok_iff.mp h
  obtain ⟨rest, hrest⟩ : ∃ rest, (p.join name).text = p.text ++ rest := by
    rw [Path.join]
    split
    next => exact ⟨name, rfl⟩
    next => exact ⟨'/' :: name, rfl⟩
  rw [hrest] at hzero hsize
  rw [utf8Size_append] at hsize
  exact check_eq_ok_iff.mpr
    ⟨fun hmem => hzero (List.mem_append_left rest hmem), hp, Nat.le_of_add_right_le hsize⟩

/-- What stands behind a path can only be found in a directory. -/
theorem isDirectory_of_locate_join (hp : p.text ≠ [])
    (h : tree.locate (p.join name) = .ok location) : tree.isDirectory p = true := by
  obtain ⟨hcheck, hwalk⟩ := locate_eq_ok_iff.mp h
  obtain ⟨inner, _, hjoined, hinner⟩ := Path.segments_join_append hp name
  rw [start, Path.isAbsolute_join hp, ← start, hjoined] at hwalk
  obtain ⟨middle, hmiddle, hlast⟩ := walk_append_eq_ok_iff.mp hwalk
  obtain ⟨segment, rest, hsegments⟩ :=
    List.exists_cons_of_ne_nil (Path.segments_ne_nil (⟨name⟩ : Path))
  rw [hsegments] at hlast
  obtain ⟨hdirectory, _⟩ := walk_cons_eq_ok_iff.mp hlast
  refine isDirectory_iff.mpr ⟨middle, locate_eq_ok_iff.mpr ⟨check_of_check_join hp hcheck, ?_⟩,
    hdirectory⟩
  rcases hinner with hinner | hinner
  · rwa [hinner]
  · rw [hinner]
    exact walk_append_eq_ok_iff.mpr ⟨middle, hmiddle,
      walk_cons_eq_ok_iff.mpr ⟨hdirectory, absurd rfl, Nat.zero_le _, rfl⟩⟩

/-- The last segment of the path of a file is its name at its location, unless it leads up. -/
theorem exists_last_segment {content : ByteArray} (hlocate : tree.locate p = .ok location)
    (hnode : tree.node? location = some (.file content)) :
    ∃ inner segment, p.segments = inner ++ [segment] ∧
      (segment = ['.', '.'] ∨
        Path.component? segment = some (.name segment) ∧
          ∃ parent, location = parent ++ [segment]) := by
  obtain ⟨_, hwalk⟩ := locate_eq_ok_iff.mp hlocate
  obtain ⟨inner, segment, hsegments⟩ : ∃ inner segment, p.segments = inner ++ [segment] :=
    ⟨_, _, (List.dropLast_append_getLast p.segments_ne_nil).symm⟩
  rw [hsegments] at hwalk
  obtain ⟨parent, _, hlast⟩ := walk_append_eq_ok_iff.mp hwalk
  obtain ⟨hdirectory, _, _, henter⟩ := walk_cons_eq_ok_iff.mp hlast
  have hlocation : enter parent segment = location := Except.ok.inj henter
  refine ⟨inner, segment, hsegments, ?_⟩
  by_cases hstay : segment = [] ∨ segment = ['.']
  · -- Such a segment leads to a directory.
    rw [enter, if_pos hstay] at hlocation
    rw [hlocation, hnode] at hdirectory
    cases hdirectory
  · by_cases hup : segment = ['.', '.']
    · exact .inl hup
    · rw [enter, if_neg hstay, if_neg hup] at hlocation
      rw [Path.component?, if_neg hstay, if_neg hup]
      exact .inr ⟨rfl, parent, hlocation.symm⟩

/-- A file has the name at its location that its path ends with. -/
theorem exists_parent_of_fileName? {content : ByteArray} (hlocate : tree.locate p = .ok location)
    (hnode : tree.node? location = some (.file content)) (hname : p.fileName? = some name) :
    ∃ parent, location = parent ++ [name] := by
  obtain ⟨inner, segment, hsegments, rfl | ⟨hcomponent, hparent⟩⟩ :=
    exists_last_segment hlocate hnode
  · rw [Path.fileName?, Path.getLast?_components hsegments (by rfl)] at hname
    cases hname
  · rw [Path.fileName?, Path.getLast?_components hsegments hcomponent] at hname
    rwa [← Option.some.inj hname]

end FileTree

end ShellDoc
