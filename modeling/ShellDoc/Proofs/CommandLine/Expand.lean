import Mathlib.Data.List.Basic
import ShellDoc.CommandLine.Run
import ShellDoc.Proofs.FileTree.Listing
import ShellDoc.Proofs.Path.Order

/-!
# What arguments stand for

Arguments that lead to files, to directories that may be listed, or nowhere, as patterns do, stand
for regular files (`exists_expand_eq`). To find them out is to report of each argument at most that
it stands for nothing. What several arguments stand for is what each of them stands for, sorted, and
nothing if one of them is not valid (`expand_eq_ok_iff`).
-/

namespace ShellDoc

namespace Path

theorem eq_or_mem_of_mem_insert {p q : Path} {ascending : List Path} (h : p ∈ insert q ascending) :
    p = q ∨ p ∈ ascending := by
  induction ascending with
  | nil => exact .inl (List.mem_singleton.mp h)
  | cons first rest ih =>
    rw [insert] at h
    split at h
    · exact List.mem_cons.mp h
    · split at h
      · rcases List.mem_cons.mp h with hfirst | hrest
        · exact .inr (hfirst ▸ List.mem_cons_self)
        · exact (ih hrest).imp_right (List.mem_cons_of_mem first)
      · exact .inr h

theorem mem_or_mem_of_mem_insertAll {p : Path} {paths ascending : List Path}
    (h : p ∈ insertAll paths ascending) : p ∈ paths ∨ p ∈ ascending := by
  induction paths generalizing ascending with
  | nil => exact .inr h
  | cons q rest ih =>
    rcases ih h with hrest | hinsert
    · exact .inl (List.mem_cons_of_mem q hrest)
    · rcases eq_or_mem_of_mem_insert hinsert with rfl | hmem
      · exact .inl List.mem_cons_self
      · exact .inr hmem

end Path

namespace CommandLine

variable {tree : FileTree}

/-- Whether an argument is valid in a tree: it leads to a file, or to a directory that may be listed,
or it leads nowhere and is a pattern. -/
def IsValidArgument (tree : FileTree) (argument : Text) : Prop :=
  tree.isFile ⟨argument⟩ = true ∨ tree.isListable ⟨argument⟩ = true ∨
    tree.isPresent ⟨argument⟩ = false ∧ ∃ pattern, Glob.Pattern.ofText argument = .ok pattern

theorem sourcesIn_of_isListable {p : Path} (h : tree.isListable p = true) :
    Source.sourcesIn tree p = .ok (((tree.entryNames p).map p.join).filter fun q =>
      tree.isFile q && Source.isShellSource q) := by
  rw [Source.sourcesIn, FileTree.list_eq_ok h]

/-- There is no going on with a directory that may not be listed. -/
theorem sourcesIn_of_not_isListable {p : Path} (h : tree.isDirectory p = true)
    (hunlistable : tree.isListable p = false) :
    Source.sourcesIn tree p = .error (.directoryUnreadable p .permissionDenied) := by
  rw [Source.sourcesIn, FileTree.list_of_isDirectory h, hunlistable]
  rfl

theorem isPresent_of_isListable {p : Path} (h : tree.isListable p = true) :
    tree.isPresent p = true := by
  rw [FileTree.isPresent, FileTree.isDirectory_of_isListable h, Bool.or_true]

theorem exists_resolve_eq {argument : Text} (h : IsValidArgument tree argument) :
    ∃ paths, resolve tree argument = .ok paths ∧ ∀ p ∈ paths, tree.isFile p = true := by
  rw [resolve]
  split
  next hfile => exact ⟨_, rfl, by simpa using hfile⟩
  next hfile =>
    split
    next hdirectory =>
      have hlistable : tree.isListable ⟨argument⟩ = true := by
        refine (h.resolve_left hfile).resolve_right fun hpattern => ?_
        rw [FileTree.isPresent, hdirectory, Bool.or_true] at hpattern
        cases hpattern.1
      rw [sourcesIn_of_isListable hlistable]
      refine ⟨_, rfl, fun q hq => ?_⟩
      exact (Bool.and_eq_true_iff.mp (List.mem_filter.mp hq).2).1
    next hdirectory =>
      obtain ⟨_, pattern, hpattern⟩ := (h.resolve_left hfile).resolve_left fun hlistable =>
        hdirectory (FileTree.isDirectory_of_isListable hlistable)
      rw [hpattern]
      exact ⟨_, rfl, fun p hp => (List.mem_filter.mp hp).2⟩

theorem exists_expandInto_eq {arguments : List Text}
    (hvalid : ∀ argument ∈ arguments, IsValidArgument tree argument) {found : List Path}
    (hfound : ∀ p ∈ found, tree.isFile p = true) :
    ∃ events sources, expandInto tree found arguments = (events, .ok sources) ∧
      (∀ e ∈ events, ∃ argument, e = .nothingMatched argument) ∧
      ∀ p ∈ sources, tree.isFile p = true := by
  induction arguments generalizing found with
  | nil => exact ⟨[], found, rfl, List.forall_mem_nil _, hfound⟩
  | cons argument rest ih =>
    obtain ⟨hargument, hrest⟩ := List.forall_mem_cons.mp hvalid
    obtain ⟨paths, hpaths, hfiles⟩ := exists_resolve_eq hargument
    have hinserted : ∀ p ∈ Path.insertAll paths found, tree.isFile p = true := fun p hp =>
      (Path.mem_or_mem_of_mem_insertAll hp).elim (hfiles p) (hfound p)
    obtain ⟨events, sources, hexpand, hevents, hsources⟩ := ih hrest hinserted
    refine ⟨noteEmpty argument paths ++ events, sources, ?_, ?_, hsources⟩
    · rw [expandInto, hpaths]
      simp only [hexpand]
    · refine List.forall_mem_append.mpr ⟨fun e he => ?_, hevents⟩
      rw [noteEmpty] at he
      split at he
      · exact ⟨argument, List.mem_singleton.mp he⟩
      · cases he

/-- Valid arguments stand for regular files. -/
theorem exists_expand_eq {arguments : List Text}
    (hvalid : ∀ argument ∈ arguments, IsValidArgument tree argument) :
    ∃ events sources, expand tree arguments = (events, .ok sources) ∧
      (∀ e ∈ events, ∃ argument, e = .nothingMatched argument) ∧
      ∀ p ∈ sources, tree.isFile p = true :=
  exists_expandInto_eq hvalid (List.forall_mem_nil _)

/-! ## Each argument on its own -/

/-- The paths that an argument stands for, none if it is not valid. -/
def resolved (tree : FileTree) (argument : Text) : List Path :=
  (resolve tree argument).toOption.getD []

variable {arguments : List Text} {argument : Text} {sources found : List Path} {failure : Failure}

/-- Why an argument is not valid, and the failure that comes of it. -/
inductive NotValid (tree : FileTree) (argument : Text) : Failure → Prop
  /-- It leads nowhere and is no pattern. -/
  | badPattern {cause : Glob.PatternError} (absent : tree.isPresent ⟨argument⟩ = false)
    (pattern : Glob.Pattern.ofText argument = .error cause) :
    NotValid tree argument (.badPattern argument cause)
  /-- It leads to a directory that may not be listed. -/
  | notListed (directory : tree.isDirectory ⟨argument⟩ = true)
    (unlistable : tree.isListable ⟨argument⟩ = false) :
    NotValid tree argument (.badSource (.directoryUnreadable ⟨argument⟩ .permissionDenied))

theorem notValid_of_resolve_eq_error (h : resolve tree argument = .error failure) :
    NotValid tree argument failure := by
  rw [resolve] at h
  split at h
  next => cases h
  next hfile =>
    split at h
    next hdirectory =>
      cases hlistable : tree.isListable ⟨argument⟩ with
      | true =>
        rw [sourcesIn_of_isListable hlistable] at h
        cases h
      | false =>
        rw [sourcesIn_of_not_isListable hdirectory hlistable] at h
        cases h
        exact .notListed hdirectory hlistable
    next hdirectory =>
      split at h
      next => cases h
      next cause hcause =>
        cases h
        refine .badPattern ?_ hcause
        rw [FileTree.isPresent, Bool.or_eq_false_iff]
        exact ⟨Bool.eq_false_iff.mpr hfile, Bool.eq_false_iff.mpr hdirectory⟩

theorem NotValid.not_isValidArgument (h : NotValid tree argument failure) :
    ¬ IsValidArgument tree argument := by
  rintro (hfile | hlistable | ⟨habsent, pattern, hpattern⟩)
  · cases h with
    | badPattern habsent =>
      rw [(Bool.or_eq_false_iff.mp habsent).1] at hfile
      cases hfile
    | notListed hdirectory =>
      rw [FileTree.isDirectory_eq_false_of_isFile hfile] at hdirectory
      cases hdirectory
  · cases h with
    | badPattern habsent =>
      rw [isPresent_of_isListable hlistable] at habsent
      cases habsent
    | notListed _ hunlistable =>
      rw [hlistable] at hunlistable
      cases hunlistable
  · cases h with
    | badPattern _ hcause =>
      rw [hpattern] at hcause
      cases hcause
    | notListed hdirectory =>
      rw [FileTree.isPresent, hdirectory, Bool.or_true] at habsent
      cases habsent

theorem isValidArgument_of_resolve {paths : List Path} (h : resolve tree argument = .ok paths) :
    IsValidArgument tree argument := by
  rw [resolve] at h
  split at h
  next hfile => exact .inl hfile
  next hfile =>
    split at h
    next hdirectory =>
      refine .inr (.inl ?_)
      by_contra hlistable
      rw [sourcesIn_of_not_isListable hdirectory (Bool.eq_false_iff.mpr hlistable)] at h
      cases h
    next hdirectory =>
      split at h
      next pattern hpattern =>
        refine .inr (.inr ⟨?_, pattern, hpattern⟩)
        rw [FileTree.isPresent, Bool.or_eq_false_iff]
        exact ⟨Bool.eq_false_iff.mpr hfile, Bool.eq_false_iff.mpr hdirectory⟩
      next => cases h

theorem resolve_eq_ok_resolved (h : IsValidArgument tree argument) :
    resolve tree argument = .ok (resolved tree argument) := by
  obtain ⟨paths, hpaths, _⟩ := exists_resolve_eq h
  rw [resolved, hpaths]
  rfl

theorem isFile_of_mem_resolved (h : IsValidArgument tree argument) {p : Path}
    (hp : p ∈ resolved tree argument) : tree.isFile p = true := by
  obtain ⟨paths, hpaths, hfiles⟩ := exists_resolve_eq h
  rw [resolved, hpaths] at hp
  exact hfiles p hp

/-- A file stands for itself. -/
theorem resolved_of_isFile (h : tree.isFile ⟨argument⟩ = true) :
    resolved tree argument = [⟨argument⟩] := by
  rw [resolved, resolve, if_pos h]
  rfl

/-- A directory that may be listed stands for the sources in it. -/
theorem resolved_of_isListable (h : tree.isListable ⟨argument⟩ = true) :
    resolved tree argument = ((tree.entryNames ⟨argument⟩).map (Path.join ⟨argument⟩)).filter
      fun q => tree.isFile q && Source.isShellSource q := by
  have hdirectory := FileTree.isDirectory_of_isListable h
  have hfile : ¬ tree.isFile ⟨argument⟩ = true := fun hfile => by
    rw [FileTree.isDirectory_eq_false_of_isFile hfile] at hdirectory
    cases hdirectory
  rw [resolved, resolve, if_neg hfile, if_pos hdirectory, sourcesIn_of_isListable h]
  rfl

/-- A pattern stands for the files that it finds. -/
theorem resolved_of_pattern {pattern : Glob.Pattern} (habsent : tree.isPresent ⟨argument⟩ = false)
    (hpattern : Glob.Pattern.ofText argument = .ok pattern) :
    resolved tree argument = (pattern.search tree).filter tree.isFile := by
  obtain ⟨hfile, hdirectory⟩ := Bool.or_eq_false_iff.mp habsent
  rw [resolved, resolve, if_neg (by rw [hfile]; decide), if_neg (by rw [hdirectory]; decide),
    hpattern]
  rfl

/-- What arguments stand for goes to what was found before, and one that is not valid ends it. -/
theorem expandInto_eq_ok_iff :
    (expandInto tree found arguments).2 = .ok sources ↔
      (∀ argument ∈ arguments, IsValidArgument tree argument) ∧
        sources = Path.insertAll (arguments.flatMap (resolved tree)) found := by
  induction arguments generalizing found with
  | nil => simp [expandInto, Path.insertAll, eq_comm]
  | cons argument rest ih =>
    rw [List.forall_mem_cons, List.flatMap_cons, Path.insertAll, List.foldl_append,
      ← Path.insertAll, ← Path.insertAll, expandInto]
    by_cases hvalid : IsValidArgument tree argument
    · rw [resolve_eq_ok_resolved hvalid]
      simp only [ih, hvalid, true_and]
    · cases hresolve : resolve tree argument with
      | error failure => simp [hvalid]
      | ok paths => exact absurd (isValidArgument_of_resolve hresolve) hvalid

/-- **The sources of a run** are those of its arguments in ascending order, if all are valid. -/
theorem expand_eq_ok_iff :
    (expand tree arguments).2 = .ok sources ↔
      (∀ argument ∈ arguments, IsValidArgument tree argument) ∧
        sources = Path.insertAll (arguments.flatMap (resolved tree)) [] :=
  expandInto_eq_ok_iff

theorem ascending_of_expand (h : (expand tree arguments).2 = .ok sources) :
    Path.Ascending sources := by
  rw [(expand_eq_ok_iff.mp h).2]
  exact Path.ascending_insertAll Path.ascending_nil _

/-- The sources of a run are regular files. -/
theorem isFile_of_expand (h : (expand tree arguments).2 = .ok sources) {p : Path}
    (hp : p ∈ sources) : tree.isFile p = true := by
  obtain ⟨hvalid, rfl⟩ := expand_eq_ok_iff.mp h
  rcases Path.mem_or_mem_of_mem_insertAll hp with hp | hp
  · obtain ⟨argument, hargument, hp⟩ := List.mem_flatMap.mp hp
    exact isFile_of_mem_resolved (hvalid argument hargument) hp
  · cases hp

/-- A run finds no sources only because one of its arguments is not valid. -/
theorem exists_notValid_of_expand_eq_error (h : (expand tree arguments).2 = .error failure) :
    ∃ argument ∈ arguments, NotValid tree argument failure := by
  rw [expand] at h
  generalize [] = found at h
  induction arguments generalizing found with
  | nil => cases h
  | cons argument rest ih =>
    rw [expandInto] at h
    split at h
    next hresolve =>
      cases h
      exact ⟨argument, List.mem_cons_self, notValid_of_resolve_eq_error hresolve⟩
    next paths hresolve =>
      obtain ⟨other, hother, hcause⟩ := ih _ h
      exact ⟨other, List.mem_cons_of_mem argument hother, hcause⟩

/-- With an argument that is not valid a run finds no sources. -/
theorem exists_expand_eq_error (hargument : argument ∈ arguments)
    (h : NotValid tree argument failure) :
    ∃ failure', (expand tree arguments).2 = .error failure' := by
  cases hexpand : (expand tree arguments).2 with
  | error failure' => exact ⟨failure', rfl⟩
  | ok sources =>
    exact absurd ((expand_eq_ok_iff.mp hexpand).1 argument hargument) h.not_isValidArgument

end CommandLine

end ShellDoc
