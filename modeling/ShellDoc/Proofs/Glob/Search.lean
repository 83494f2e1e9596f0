import ShellDoc.Glob.Search
import ShellDoc.Proofs.Glob.Ending
import ShellDoc.Proofs.Source.Filled
import ShellDoc.Proofs.Source.Spelling

/-!
# What a search finds

`Finds` says what it takes for the parts of a pattern to lead from one path to another. A search in a
tree with new outputs finds all that it found before, and no other source (`Filled.finds_iff`): the
outputs themselves are no sources, and nothing lies behind them. This takes that the names of the
outputs' directory are names that a path can spell.
-/

namespace ShellDoc

open FileTree Source

namespace Glob

variable {tree before after : FileTree} {p q r : Path} {parts : List Part} {names : List Text}
  {name : Text} {location root : Location} {format : Format}

/-! ## Paths below a directory -/

theorem name_suffix_below (p : Path) (name : Text) : name <:+ (below p name).text := by
  rw [below]
  split
  next => exact List.suffix_refl name
  next =>
    rw [Path.join]
    split
    next => exact List.suffix_append p.text name
    next => exact (List.suffix_cons '/' name).trans (List.suffix_append p.text _)

/-- What stands below a directory has its names behind the components of the directory. -/
theorem components_below (hp : p.text ≠ []) (hnames : IsLocation names) (hne : names ≠ []) :
    ∃ components, (below p (Text.join ['/'] names)).components = components ++ names.map .name ∧
      (components = p.components ∨ components = [] ∧ p.components = [.current]) := by
  rw [below]
  split
  next hcurrent =>
    exact ⟨[], Path.components_join_names hnames hne, .inr ⟨rfl, eq_of_beq hcurrent⟩⟩
  next => exact ⟨p.components, Path.components_join hp hnames hne, .inl rfl⟩

theorem fileName?_below (hp : p.text ≠ []) (hnames : IsLocation (names ++ [name])) :
    (below p (Text.join ['/'] (names ++ [name]))).fileName? = some name := by
  obtain ⟨components, hcomponents, _⟩ := components_below hp hnames (by simp)
  rw [Path.fileName?, hcomponents, List.map_append, ← List.append_assoc]
  simp

theorem foldl_follow_names (location : Location) (names : List Text) :
    (names.map .name).foldl Path.Component.follow location = location ++ names := by
  induction names generalizing location with
  | nil => exact (List.append_nil location).symm
  | cons name rest ih => rw [List.map_cons, List.foldl_cons, ih, Path.Component.follow,
      List.append_assoc, List.singleton_append]

/-- Names lead on from where the directory is. -/
theorem locate_below {other : Location} (hnames : IsLocation names) (hne : names ≠ [])
    (hlocate : tree.locate p = .ok location)
    (hbelow : tree.locate (below p (Text.join ['/'] names)) = .ok other) :
    other = location ++ names := by
  have hp : p.text ≠ [] := (check_eq_ok_iff.mp (locate_eq_ok_iff.mp hlocate).1).2.1
  obtain ⟨components, hcomponents, hstart⟩ := components_below hp hnames hne
  rw [locate_eq_foldl hbelow, locate_eq_foldl hlocate, hcomponents, List.foldl_append,
    foldl_follow_names]
  rcases hstart with rfl | ⟨rfl, hcurrent⟩
  · rfl
  · rw [hcurrent]
    rfl

/-- Whether nothing lies behind a path: it is no directory, and not the start of relative paths. -/
structure IsDeadEnd (tree : FileTree) (p : Path) : Prop where
  notDirectory : tree.isDirectory p = false
  notCurrent : p.isCurrent = false
  ne_nil : p.text ≠ []

/-- Nothing lies behind a file. -/
theorem isDeadEnd_of_isFile (h : tree.isFile p = true) : IsDeadEnd tree p := by
  obtain ⟨location, content, hlocate, hnode⟩ := isFile_iff.mp h
  obtain ⟨hcheck, hwalk⟩ := locate_eq_ok_iff.mp hlocate
  refine ⟨isDirectory_eq_false_of_isFile h, Bool.eq_false_iff.mpr fun hcurrent => ?_,
    (check_eq_ok_iff.mp hcheck).2.1⟩
  -- The walk starts in the directory where the path leads.
  have hcomponents : p.components = [.current] := eq_of_beq hcurrent
  have hrelative : p.isAbsolute = false := by
    refine Bool.eq_false_iff.mpr fun habsolute => ?_
    rw [Path.components, if_pos habsolute] at hcomponents
    cases hcomponents
  have hthere : location = tree.start p := by
    rw [locate_eq_foldl hlocate, hcomponents, start, hrelative]
    rfl
  obtain ⟨segment, rest, hsegments⟩ := List.exists_cons_of_ne_nil p.segments_ne_nil
  rw [hsegments] at hwalk
  obtain ⟨hdirectory, _⟩ := walk_cons_eq_ok_iff.mp hwalk
  rw [← hthere, hnode] at hdirectory
  cases hdirectory

theorem ends_of_leadsToOutput (hroot : IsLocation root) (hne : names ≠ [])
    (h : LeadsToOutput format root tree p names) :
    isShellSource (below p (Text.join ['/'] names)) = false ∧
      IsDeadEnd tree (below p (Text.join ['/'] names)) := by
  obtain ⟨location, q, hlocate, hplace, hnode⟩ := h
  have hp : p.text ≠ [] := (check_eq_ok_iff.mp (locate_eq_ok_iff.mp hlocate).1).2.1
  obtain ⟨inner, last, rfl⟩ : ∃ inner last, names = inner ++ [last] :=
    ⟨_, _, (List.dropLast_append_getLast hne).symm⟩
  rw [← List.append_assoc] at hplace hnode
  obtain ⟨hparent, hlast⟩ := List.append_inj' hplace rfl
  obtain rfl : last = outputFile format q := List.cons.inj hlast |>.1
  have hnames : IsLocation (inner ++ [outputFile format q]) := by
    refine List.forall_mem_append.mpr ⟨fun name hname => hroot name ?_,
      List.forall_mem_singleton.mpr (isEntryName_outputFile format q)⟩
    rw [← hparent]
    exact List.mem_append_right location hname
  have hfile := fileName?_below hp hnames
  refine ⟨?_, ?_, ?_, ?_⟩
  · rw [isShellSource_eq, hfile]
    exact isSourceName_outputFile format q
  · refine Bool.eq_false_iff.mpr fun hdirectory => hnode ?_
    obtain ⟨other, hother, hnode'⟩ := isDirectory_iff.mp hdirectory
    rw [locate_below hnames hne hlocate hother, ← List.append_assoc] at hnode'
    exact hnode'
  · refine Bool.eq_false_iff.mpr fun hcurrent => ?_
    rw [Path.fileName?, eq_of_beq hcurrent] at hfile
    cases hfile
  · intro hnil
    rw [Path.fileName?, Path.components, Path.segments, Path.isAbsolute, hnil] at hfile
    cases hfile

/-! ## Steps of a search -/

/-- How parts lead from one path to another. -/
inductive Finds (tree : FileTree) : List Part → Path → Path → Prop
  | here (p : Path) : Finds tree [] p p
  /-- A dot and two dots lead on from a directory. -/
  | dots {name : Text} {parts : List Part} {p r : Path} (dots : name = ['.'] ∨ name = ['.', '.'])
    (start : tree.isDirectory p = true) (rest : Finds tree parts (below p name) r) :
    Finds tree (.literal name :: parts) p r
  /-- Other names lead on if they are there. -/
  | named {name : Text} {parts : List Part} {p r : Path}
    (notDots : ¬ (name = ['.'] ∨ name = ['.', '.']))
    (present : tree.isPresent (below p name) = true) (rest : Finds tree parts (below p name) r) :
    Finds tree (.literal name :: parts) p r
  /-- Wildcards behind a dot may lead to the directory itself and its parent. -/
  | special {tokens : List Token} {parts : List Part} {p q r : Path}
    (start : tree.isListable p = true) (entry : q ∈ specialEntries tokens p)
    (rest : Finds tree parts q r) : Finds tree (.wild tokens :: parts) p r
  /-- Wildcards lead to the names that they cover. -/
  | entry {tokens : List Token} {parts : List Part} {name : Text} {p r : Path}
    (listed : [name] ∈ tree.namesUnder p) (covered : covers tokens name = true)
    (rest : Finds tree parts (below p (Text.join ['/'] [name])) r) :
    Finds tree (.wild tokens :: parts) p r
  /-- Depth at the end leads to all directories. -/
  | anyDirectory {names : List Text} {p : Path} (listed : names ∈ tree.namesUnder p)
    (directory : tree.isDirectory (below p (Text.join ['/'] names)) = true) :
    Finds tree [.anyDepth] p (below p (Text.join ['/'] names))
  /-- Depth elsewhere leads to all whose own name the next part covers. -/
  | anyDepth {part : Part} {parts : List Part} {names : List Text} {p r : Path}
    (listed : names ∈ tree.namesUnder p) (covered : part.covers (names.getLastD []) = true)
    (rest : Finds tree parts (below p (Text.join ['/'] names)) r) :
    Finds tree (.anyDepth :: part :: parts) p r

theorem mem_literalStep_iff :
    q ∈ literalStep tree p name ↔ q = below p name ∧
      if name = ['.'] ∨ name = ['.', '.'] then tree.isDirectory p = true
      else tree.isPresent (below p name) = true := by
  rw [literalStep]
  by_cases hdots : name = ['.'] ∨ name = ['.', '.']
  · cases hstart : tree.isDirectory p with
    | true => simp [hdots]
    | false => simp [hdots]
  · cases hpresent : tree.isPresent (below p name) with
    | true => simp [hdots]
    | false => simp [hdots]

theorem mem_wildStep_iff {tokens : List Token} :
    q ∈ wildStep tree p tokens ↔
      (tree.isListable p = true ∧ q ∈ specialEntries tokens p) ∨
        ∃ name, [name] ∈ tree.namesUnder p ∧ covers tokens name = true ∧
          q = below p (Text.join ['/'] [name]) := by
  rw [wildStep]
  split
  next hlistable =>
    simp only [List.mem_append, List.mem_map, List.mem_filter, mem_entryNames_iff, hlistable,
      Text.join_singleton, true_and, and_assoc, eq_comm]
  next hlistable =>
    refine iff_of_false List.not_mem_nil ?_
    rintro (⟨hstart, _⟩ | ⟨name, hlisted, _⟩)
    · exact hlistable hstart
    · exact hlistable (isListable_of_mem_namesUnder hlisted)

/-- A search finds what its steps lead to. -/
theorem mem_searchFrom_iff (tree : FileTree) :
    ∀ (parts : List Part) (p r : Path), r ∈ searchFrom tree parts p ↔ Finds tree parts p r
  | [], p, r => by
    rw [searchFrom, List.mem_singleton]
    constructor
    · rintro rfl
      exact .here r
    · intro h
      cases h
      rfl
  | .literal name :: parts, p, r => by
    simp only [searchFrom, List.mem_flatMap, mem_searchFrom_iff tree parts, mem_literalStep_iff]
    constructor
    · rintro ⟨q, ⟨rfl, hfound⟩, hrest⟩
      split at hfound
      next hdots => exact .dots hdots hfound hrest
      next hdots => exact .named hdots hfound hrest
    · intro h
      cases h with
      | dots hdots hstart hrest => exact ⟨_, ⟨rfl, by rwa [if_pos hdots]⟩, hrest⟩
      | named hdots hpresent hrest => exact ⟨_, ⟨rfl, by rwa [if_neg hdots]⟩, hrest⟩
  | .wild tokens :: parts, p, r => by
    simp only [searchFrom, List.mem_flatMap, mem_searchFrom_iff tree parts, mem_wildStep_iff]
    constructor
    · rintro ⟨q, ⟨hstart, hentry⟩ | ⟨name, hlisted, hcovered, rfl⟩, hrest⟩
      · exact .special hstart hentry hrest
      · exact .entry hlisted hcovered hrest
    · intro h
      cases h with
      | special hstart hentry hrest => exact ⟨_, .inl ⟨hstart, hentry⟩, hrest⟩
      | entry hlisted hcovered hrest => exact ⟨_, .inr ⟨_, hlisted, hcovered, rfl⟩, hrest⟩
  | [.anyDepth], p, r => by
    simp only [searchFrom, descents, List.map_map, List.mem_filter, List.mem_map,
      Function.comp_apply]
    constructor
    · rintro ⟨⟨names, hlisted, rfl⟩, hdirectory⟩
      exact .anyDirectory hlisted hdirectory
    · intro h
      cases h with
      | anyDirectory hlisted hdirectory => exact ⟨⟨_, hlisted, rfl⟩, hdirectory⟩
  | .anyDepth :: part :: parts, p, r => by
    simp only [searchFrom, descents, List.mem_flatMap, List.mem_filter, List.mem_map,
      mem_searchFrom_iff tree parts]
    constructor
    · rintro ⟨_, ⟨⟨names, hlisted, rfl⟩, hcovered⟩, hrest⟩
      exact .anyDepth hlisted hcovered hrest
    · intro h
      cases h with
      | anyDepth hlisted hcovered hrest => exact ⟨_, ⟨⟨_, hlisted, rfl⟩, hcovered⟩, hrest⟩

/-- A search ends where nothing lies behind. -/
theorem Finds.eq_of_isDeadEnd (h : Finds tree parts p r) (hp : IsDeadEnd tree p) :
    parts = [] ∧ r = p := by
  have hnot : tree.isDirectory p ≠ true := by simp [hp.notDirectory]
  cases h with
  | here => exact ⟨rfl, rfl⟩
  | dots _ hstart => exact absurd hstart hnot
  | named _ hpresent =>
    rw [Glob.below, if_neg (by simp [hp.notCurrent]), isPresent, Bool.or_eq_true] at hpresent
    refine absurd ?_ hnot
    rcases hpresent with hfile | hdirectory
    · obtain ⟨_, _, hlocate, _⟩ := isFile_iff.mp hfile
      exact isDirectory_of_locate_join hp.ne_nil hlocate
    · obtain ⟨_, hlocate, _⟩ := isDirectory_iff.mp hdirectory
      exact isDirectory_of_locate_join hp.ne_nil hlocate
  | special hstart => exact absurd (isDirectory_of_isListable hstart) hnot
  | entry hlisted => exact absurd (isDirectory_of_mem_namesUnder hlisted) hnot
  | anyDirectory hlisted => exact absurd (isDirectory_of_mem_namesUnder hlisted) hnot
  | anyDepth hlisted => exact absurd (isDirectory_of_mem_namesUnder hlisted) hnot

/-- A search in a tree with new outputs finds what it found before. -/
theorem Finds.filled (h : Finds before parts p r) (hfilled : Filled format root before after) :
    Finds after parts p r := by
  induction h with
  | here p => exact .here p
  | dots hdots hstart _ ih => exact .dots hdots ((hfilled.sources.isDirectory _).trans hstart) ih
  | named hdots hpresent _ ih => exact .named hdots (hfilled.isPresent hpresent) ih
  | special hstart hentry _ ih =>
    exact .special ((hfilled.sources.isListable _).trans hstart) hentry ih
  | entry hlisted hcovered _ ih => exact .entry (hfilled.namesUnder_subset hlisted) hcovered ih
  | anyDirectory hlisted hdirectory =>
    exact .anyDirectory (hfilled.namesUnder_subset hlisted)
      ((hfilled.sources.isDirectory _).trans hdirectory)
  | anyDepth hlisted hcovered _ ih =>
    exact .anyDepth (hfilled.namesUnder_subset hlisted) hcovered ih

/-- Behind an output there is only the output itself, and that is no source. -/
theorem isShellSource_eq_false_of_finds (hroot : IsLocation root) (hne : names ≠ [])
    (houtput : LeadsToOutput format root tree p names)
    (h : Finds tree parts (below p (Text.join ['/'] names)) r) : isShellSource r = false := by
  obtain ⟨hnone, hend⟩ := ends_of_leadsToOutput hroot hne houtput
  obtain ⟨_, rfl⟩ := h.eq_of_isDeadEnd hend
  exact hnone

/-- A source that is found in a tree with new outputs was found before. -/
theorem Finds.of_filled (h : Finds after parts p r) (hfilled : Filled format root before after)
    (hroot : IsLocation root) (hfile : after.isFile r = true) (hsource : isShellSource r = true) :
    Finds before parts p r := by
  have hdirectories := hfilled.sources.isDirectory
  induction h with
  | here p => exact .here p
  | dots hdots hstart _ ih =>
    exact .dots hdots ((hdirectories _).symm.trans hstart) (ih hfile hsource)
  | @named name parts p r hdots hpresent hrest ih =>
    cases hbefore : before.isPresent (Glob.below p name) with
    | true => exact .named hdots hbefore (ih hfile hsource)
    | false =>
      obtain ⟨hnofile, hnodirectory⟩ := Bool.or_eq_false_iff.mp hbefore
      have hnew : after.isFile (Glob.below p name) = true := by
        rw [isPresent, Bool.or_eq_true, hdirectories, hnodirectory] at hpresent
        exact hpresent.resolve_right Bool.false_ne_true
      obtain ⟨_, rfl⟩ := hrest.eq_of_isDeadEnd (isDeadEnd_of_isFile hnew)
      rw [hfilled.sources.isFile_of_isShellSource hsource hfile] at hnofile
      cases hnofile
  | special hstart hentry _ ih =>
    exact .special ((hfilled.sources.isListable _).symm.trans hstart) hentry (ih hfile hsource)
  | entry hlisted hcovered hrest ih =>
    rcases hfilled.mem_namesUnder hlisted with hlisted | hnew
    · exact .entry hlisted hcovered (ih hfile hsource)
    · rw [isShellSource_eq_false_of_finds hroot (List.cons_ne_nil _ _) hnew hrest] at hsource
      cases hsource
  | anyDirectory _ hdirectory =>
    rw [isDirectory_eq_false_of_isFile hfile] at hdirectory
    cases hdirectory
  | anyDepth hlisted hcovered hrest ih =>
    rcases hfilled.mem_namesUnder hlisted with hlisted' | hnew
    · exact .anyDepth hlisted' hcovered (ih hfile hsource)
    · rw [isShellSource_eq_false_of_finds hroot (ne_nil_of_mem_namesUnder hlisted) hnew hrest]
        at hsource
      cases hsource

/-- A special entry ends with a name that the tokens cover. -/
theorem exists_of_mem_specialEntries {tokens : List Token} (h : q ∈ specialEntries tokens p) :
    ∃ name, covers tokens name = true ∧ name <:+ q.text := by
  rw [specialEntries] at h
  split at h
  next =>
    obtain ⟨name, hname, rfl⟩ := List.mem_map.mp h
    refine ⟨name, (List.mem_filter.mp hname).2, ?_⟩
    rw [Path.join]
    split
    next => exact List.suffix_append _ name
    next => exact (List.suffix_cons '/' name).trans (List.suffix_append _ _)
  next => cases h

/-- A step to a path with a name that a part covers, and what the parts behind it find. -/
theorem suffix_of_step (first : Part) {part : Part} {ending : Text}
    (hq : ∃ name, first.covers name = true ∧ name <:+ q.text) (hrest : Finds tree parts q r)
    (hparts : parts.getLast? = some part → ending <:+ r.text)
    (hlast : (first :: parts).getLast? = some part)
    (hends : ∀ name, part.covers name = true → ending <:+ name) : ending <:+ r.text := by
  cases parts with
  | nil =>
    obtain rfl := Option.some.inj hlast
    obtain ⟨name, hname, hsuffix⟩ := hq
    cases hrest
    exact (hends name hname).trans hsuffix
  | cons second parts => exact hparts (by rwa [List.getLast?_cons_cons] at hlast)

/-- Whatever parts find ends as the last part demands. -/
theorem Finds.suffix (h : Finds tree parts p r) {part : Part} (hlast : parts.getLast? = some part)
    (hpart : part ≠ .anyDepth) {ending : Text}
    (hends : ∀ name, part.covers name = true → ending <:+ name) : ending <:+ r.text := by
  induction h with
  | here => cases hlast
  | @dots name _ p _ _ _ hrest ih =>
    exact suffix_of_step (.literal name) ⟨name, beq_self_eq_true name, name_suffix_below p name⟩
      hrest ih hlast hends
  | @named name _ p _ _ _ hrest ih =>
    exact suffix_of_step (.literal name) ⟨name, beq_self_eq_true name, name_suffix_below p name⟩
      hrest ih hlast hends
  | @special tokens _ _ _ _ _ hentry hrest ih =>
    exact suffix_of_step (.wild tokens) (exists_of_mem_specialEntries hentry) hrest ih hlast hends
  | @entry tokens _ name p _ _ hcovered hrest ih =>
    refine suffix_of_step (.wild tokens) ⟨name, hcovered, ?_⟩ hrest ih hlast hends
    rw [Text.join_singleton]
    exact name_suffix_below p name
  | anyDirectory => exact absurd (Option.some.inj hlast).symm hpart
  | @anyDepth second _ names p _ hlisted hcovered hrest ih =>
    rw [List.getLast?_cons_cons] at hlast
    refine suffix_of_step second ⟨_, hcovered, ?_⟩ hrest ih hlast hends
    obtain ⟨inner, name, rfl⟩ : ∃ inner name, names = inner ++ [name] :=
      ⟨_, _, (List.dropLast_append_getLast (ne_nil_of_mem_namesUnder hlisted)).symm⟩
    rw [List.getLastD_concat]
    exact (Text.suffix_join_concat inner ['/'] name).trans (name_suffix_below p _)

/-! ## Whole patterns -/

theorem mem_search_iff {pattern : Pattern} :
    r ∈ pattern.search tree ↔
      Finds tree pattern.parts ⟨if pattern.isAbsolute then ['/'] else ['.']⟩ r ∧
        (pattern.directoriesOnly = true → tree.isDirectory r = true) := by
  rw [Pattern.search]
  split
  next hdirectories => rw [List.mem_filter, mem_searchFrom_iff]; simp [hdirectories]
  next hdirectories => rw [mem_searchFrom_iff]; simp [hdirectories]

/-- **Outputs change no search for sources.** -/
theorem mem_search_filled_iff (h : Filled format root before after) (hroot : IsLocation root)
    {pattern : Pattern} (hfile : after.isFile r = true) (hsource : isShellSource r = true) :
    r ∈ pattern.search after ↔ r ∈ pattern.search before := by
  rw [mem_search_iff, mem_search_iff, h.sources.isDirectory]
  refine and_congr_left fun _ => ⟨fun hfinds => ?_, fun hfinds => hfinds.filled h⟩
  exact hfinds.of_filled h hroot hfile hsource

/-- What a pattern with a plain ending finds ends in the same way. -/
theorem suffix_of_mem_search {ending t : Text} (hplain : IsPlainEnding ending)
    (hending : ending <:+ t) {pattern : Pattern} (hpattern : Pattern.ofText t = .ok pattern)
    (h : r ∈ pattern.search tree) : ending <:+ r.text := by
  obtain ⟨part, hlast, hpart, hends⟩ := exists_last_part hplain hending hpattern
  exact (mem_search_iff.mp h).1.suffix hlast hpart hends

end Glob

end ShellDoc
