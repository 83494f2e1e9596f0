import ShellDoc.Proofs.CommandLine.Files
import ShellDoc.Proofs.Glob.Ending

/-!
# Runs that fail

`Fails` lists why a run fails that gets past its arguments and its log setting, each cause with the
tree that is left behind. These are all causes, and each of them makes a run fail (`run_fails_iff`).
A source that cannot be used is not among them: the run goes on as if it were not there. A directory
that may not be listed is, since nothing can be told of the sources in it.

An output that cannot be written comes last. By then the run has changed what a run on the earlier
sources alone would change, and nothing else.

An argument that is no pattern is a cause only if it leads nowhere. If it is the path of a file, it
is not read as a pattern, and the run may fail later on (`run_fails_otherwise`).
-/

namespace ShellDoc.CommandLine

open Source FileTree

variable {tree made after : FileTree} {marker : Char} {format : Format} {directory p : Path}
  {options : Options} {input : ByteArray} {sources earlier later : List Path}
  {written : List (Path × Path)} {failure : Failure} {cause : FileError}

/-! ## Outputs that cannot be written -/

/-- A source that cannot be used is passed over. -/
theorem sameEnd_writeAll_skipped {reason : SourceError}
    (h : readFunctions tree marker p = .error reason) :
    SameEnd (writeAll marker format directory written tree (p :: later))
      (writeAll marker format directory written tree later) := by
  rw [writeAll, h]
  exact ⟨rfl, rfl⟩

/-- Writing stops at a source whose output cannot be written, when all earlier ones have been. -/
theorem exists_of_writeAll_eq_error
    (h : (writeAll marker format directory written tree sources).result = .error failure) :
    ∃ earlier p later cause, sources = earlier ++ p :: later ∧
      let before := writeAll marker format directory written tree earlier
      before.result = .ok [] ∧
        (writeAll marker format directory written tree sources).tree = before.tree ∧
        isDocumented before.tree marker p = true ∧
        before.tree.write (outputPath directory format p)
          (outputBytes before.tree marker format p) = .error cause := by
  induction sources generalizing tree written with
  | nil => cases h
  | cons q rest ih =>
    cases hq : isDocumented tree marker q with
    | false =>
      have hstep := writeAll_cons_of_not_isDocumented hq format directory written
      obtain ⟨_, _, hrest⟩ := hstep rest
      rw [hrest] at h ⊢
      obtain ⟨earlier, p, later, cause, rfl, hresult, htree, hp, hwrite⟩ := ih h
      obtain ⟨_, _, hearlier⟩ := hstep earlier
      refine ⟨q :: earlier, p, later, cause, rfl, ?_⟩
      rw [hearlier]
      exact ⟨hresult, htree, hp, hwrite⟩
    | true =>
      cases hwrite : tree.write (outputPath directory format q)
          (outputBytes tree marker format q) with
      | error cause =>
        rw [writeAll_cons_of_write_eq_error hq hwrite]
        exact ⟨[], q, rest, cause, rfl, rfl, rfl, hq, hwrite⟩
      | ok next =>
        rw [writeAll_cons_of_write_eq_ok hq hwrite] at h ⊢
        obtain ⟨earlier, p, later, cause, rfl, hresult, htree, hp, hwrite'⟩ := ih h
        refine ⟨q :: earlier, p, later, cause, rfl, ?_⟩
        rw [writeAll_cons_of_write_eq_ok hq hwrite]
        exact ⟨hresult, htree, hp, hwrite'⟩

/-- What is written does not depend on which outputs there have been. -/
theorem writeAll_append {output : Text}
    (h : (writeAll marker format directory written tree earlier).result = .ok output)
    (later : List Path) :
    ∃ written', SameEnd (writeAll marker format directory written tree (earlier ++ later))
      (writeAll marker format directory written'
        (writeAll marker format directory written tree earlier).tree later) := by
  induction earlier generalizing tree written with
  | nil => exact ⟨written, rfl, rfl⟩
  | cons q rest ih =>
    cases hq : isDocumented tree marker q with
    | false =>
      have hstep := writeAll_cons_of_not_isDocumented hq format directory written
      obtain ⟨_, _, hrest⟩ := hstep rest
      obtain ⟨_, _, hall⟩ := hstep (rest ++ later)
      rw [hrest] at h ⊢
      rw [List.cons_append, hall]
      obtain ⟨written', hresult, htree⟩ := ih h
      exact ⟨written', hresult, htree⟩
    | true =>
      cases hwrite : tree.write (outputPath directory format q)
          (outputBytes tree marker format q) with
      | error cause =>
        rw [writeAll_cons_of_write_eq_error hq hwrite] at h
        cases h
      | ok next =>
        rw [writeAll_cons_of_write_eq_ok hq hwrite] at h ⊢
        rw [List.cons_append, writeAll_cons_of_write_eq_ok hq hwrite]
        obtain ⟨written', hresult, htree⟩ := ih h
        exact ⟨written', hresult, htree⟩

/-- Sources that are given one by one are found as they are. -/
theorem expand_texts (hfiles : ∀ p ∈ sources, tree.isFile p = true)
    (hascending : Path.Ascending sources) :
    (expand tree (sources.map Path.text)).2 = .ok sources := by
  have hresolved : ∀ p ∈ sources, resolved tree p.text = [p] := fun p hp =>
    resolved_of_isFile (hfiles p hp)
  refine expand_eq_ok_iff.mpr ⟨fun argument hargument => ?_, ?_⟩
  · obtain ⟨p, hp, rfl⟩ := List.mem_map.mp hargument
    exact .inl (hfiles p hp)
  · have hflat : (sources.map Path.text).flatMap (resolved tree) = sources := by
      rw [List.flatMap_map, List.flatMap_congr hresolved, List.flatMap_singleton']
    rw [hflat]
    exact (Path.insertAll_of_ascending hascending : _ = [] ++ sources).symm

/-! ## Causes -/

/-- Why a run with the given options, input and tree fails, and the tree that it leaves behind. -/
inductive Fails (options : Options) (input : ByteArray) (tree : FileTree) : FileTree → Prop
  /-- A comment block is asked for, but files are given. -/
  | blockTakesNoFiles (block : options.block = true) (files : options.files ≠ []) :
    Fails options input tree tree
  /-- The input is read, but is not text. -/
  | inputNotText (reads : readsInput options = true) (content : decodeUtf8? input = none) :
    Fails options input tree tree
  /-- The format is not known. -/
  | unknownFormat (block : options.block = false) (format : Format.ofName? options.format = none) :
    Fails options input tree tree
  /-- Files are given, but no output directory. -/
  | outputRequired (block : options.block = false) (files : options.files ≠ [])
    (output : options.output? = none) : Fails options input tree tree
  /-- The output directory cannot be made. -/
  | notCreated {directory : Path} {format : Format} {made : FileTree} {cause : FileError}
    (block : options.block = false) (files : options.files ≠ [])
    (output : WritesTo options directory format)
    (created : tree.createDirectories directory = ⟨made, some cause⟩)
    (grown : GrownAlong (directory :: directory.ancestors) tree made) :
    Fails options input tree made
  /-- One of the files leads nowhere and is no pattern. -/
  | badPattern {directory : Path} {format : Format} {made : FileTree} {argument : Text}
    {cause : Glob.PatternError} (block : options.block = false)
    (output : WritesTo options directory format)
    (created : tree.createDirectories directory = ⟨made, none⟩)
    (grown : GrownAlong (directory :: directory.ancestors) tree made)
    (file : argument ∈ options.files) (absent : made.isPresent ⟨argument⟩ = false)
    (pattern : Glob.Pattern.ofText argument = .error cause) :
    Fails options input tree made
  /-- One of the files is a directory that may not be listed. -/
  | notListed {directory : Path} {format : Format} {made : FileTree} {argument : Text}
    (block : options.block = false) (output : WritesTo options directory format)
    (created : tree.createDirectories directory = ⟨made, none⟩)
    (grown : GrownAlong (directory :: directory.ancestors) tree made)
    (file : argument ∈ options.files) (listed : made.isDirectory ⟨argument⟩ = true)
    (unlistable : made.isListable ⟨argument⟩ = false) :
    Fails options input tree made
  /-- The output for one of the sources cannot be written. A run on the earlier ones alone leaves the
  same tree. -/
  | notWritten {directory : Path} {format : Format} {made after : FileTree}
    {earlier later : List Path} {p : Path} {cause : FileError}
    (block : options.block = false) (files : options.files ≠ [])
    (output : WritesTo options directory format)
    (created : tree.createDirectories directory = ⟨made, none⟩)
    (expanded : (expand made options.files).2 = .ok (earlier ++ p :: later))
    (others : ∃ events, runFiles { options with files := earlier.map Path.text } tree =
      ⟨events, .ok [], after⟩)
    (documented : isDocumented after options.marker p = true)
    (write : after.write (outputPath directory format p)
      (outputBytes after options.marker format p) = .error cause) :
    Fails options input tree after

/-! ## Each mode -/

theorem runBlock_failsWith_iff :
    (runBlock options input tree).FailsWith after ↔
      (options.files ≠ [] ∨ decodeUtf8? input = none) ∧ tree = after := by
  refine and_congr_left fun _ => ?_
  rw [runBlock, readInput]
  by_cases hfiles : options.files = []
  · cases decodeUtf8? input with
    | none => simp [hfiles, bind, Except.bind]
    | some block => simp [hfiles, bind, Except.bind, pure, Except.pure]
  · simp [hfiles, bind, Except.bind, throw, throwThe, MonadExceptOf.throw]

theorem runInput_failsWith_iff :
    (runInput options input tree).FailsWith after ↔
      (Format.ofName? options.format = none ∨ decodeUtf8? input = none) ∧ tree = after := by
  rw [runInput, formatOf, readInput]
  cases Format.ofName? options.format with
  | none => simp [Report.FailsWith, bind, Except.bind]
  | some format =>
    cases decodeUtf8? input with
    | none => simp [Report.FailsWith, bind, Except.bind]
    | some script => simp [Report.FailsWith, bind, Except.bind, pure, Except.pure]

/-- A run on the first sources of another run writes them. -/
theorem exists_runFiles_earlier (houtput : WritesTo options directory format)
    (hcreated : tree.createDirectories directory = ⟨made, none⟩)
    (hexpanded : (expand made options.files).2 = .ok (earlier ++ later)) :
    ∃ events, runFiles { options with files := earlier.map Path.text } tree =
      let report := writeAll options.marker format directory [] made earlier
      { report with events := events ++ report.events } := by
  have hascending := ascending_of_expand hexpanded
  rw [Path.Ascending, List.map_append] at hascending
  have hearlier : (expand made (earlier.map Path.text)).2 = .ok earlier :=
    expand_texts (fun p hp => isFile_of_expand hexpanded (List.mem_append_left later hp))
      (List.pairwise_append.mp hascending).1
  exact ⟨_, runFiles_eq_iff.mpr
    (.expanded ⟨houtput.directory, houtput.format⟩ hcreated (Prod.ext rfl hearlier))⟩

theorem fails_of_runFiles (hblock : options.block = false) (hfiles : options.files ≠ [])
    (h : (runFiles options tree).FailsWith after) : Fails options input tree after := by
  obtain ⟨report, hreport⟩ : ∃ report, runFiles options tree = report := ⟨_, rfl⟩
  rw [hreport] at h
  have hgrown : ∀ {directory made error?}, tree.createDirectories directory = ⟨made, error?⟩ →
      GrownAlong (directory :: directory.ancestors) tree made := by
    intro directory made error? hcreated
    have hmade := grownAlong_createDirectories tree directory
    rwa [hcreated] at hmade
  obtain ⟨⟨failure, hfailure⟩, rfl⟩ := h
  cases runFiles_eq_iff.mp hreport with
  | outputRequired houtput => exact .outputRequired hblock hfiles houtput
  | unknownFormat houtput hformat => exact .unknownFormat hblock hformat
  | notCreated houtput hcreated =>
    exact .notCreated hblock hfiles houtput hcreated (hgrown hcreated)
  | notExpanded houtput hcreated hexpanded =>
    obtain ⟨argument, hargument, hinvalid⟩ :=
      exists_notValid_of_expand_eq_error (congrArg Prod.snd hexpanded)
    cases hinvalid with
    | badPattern habsent hpattern =>
      exact .badPattern hblock houtput hcreated (hgrown hcreated) hargument habsent hpattern
    | notListed hlisted hunlistable =>
      exact .notListed hblock houtput hcreated (hgrown hcreated) hargument hlisted hunlistable
  | expanded houtput hcreated hexpanded =>
    obtain ⟨earlier, p, later, cause, rfl, hresult, htree, hp, hwrite⟩ :=
      exists_of_writeAll_eq_error hfailure
    have hsources := congrArg Prod.snd hexpanded
    obtain ⟨events, hearlier⟩ := exists_runFiles_earlier houtput hcreated hsources
    dsimp only at hearlier
    rw [hresult, ← htree] at hearlier
    rw [← htree] at hp hwrite
    exact .notWritten hblock hfiles houtput hcreated hsources ⟨_, hearlier⟩ hp hwrite

/-- A run ends where the output for a source cannot be written. -/
theorem runFiles_failsWith_of_write_eq_error (houtput : WritesTo options directory format)
    (hcreated : tree.createDirectories directory = ⟨made, none⟩)
    (hexpanded : (expand made options.files).2 = .ok (earlier ++ p :: later))
    (hothers : ∃ events, runFiles { options with files := earlier.map Path.text } tree =
      ⟨events, .ok [], after⟩)
    (hp : isDocumented after options.marker p = true)
    (hwrite : after.write (outputPath directory format p)
      (outputBytes after options.marker format p) = .error cause) :
    (runFiles options tree).FailsWith after := by
  obtain ⟨events, hothers⟩ := hothers
  obtain ⟨events', hearlier⟩ := exists_runFiles_earlier houtput hcreated hexpanded
  obtain ⟨-, hresult, rfl⟩ := Report.mk.inj (hothers.symm.trans hearlier)
  obtain ⟨written, hend, htree⟩ := writeAll_append hresult.symm (p :: later)
  rw [writeAll_cons_of_write_eq_error hp hwrite] at hend htree
  rw [runFiles_eq_iff.mpr (.expanded houtput hcreated (Prod.ext rfl hexpanded))]
  refine ⟨?_, htree⟩
  dsimp only
  revert hend
  cases (writeAll options.marker format directory [] made (earlier ++ p :: later)).result with
  | error failure => exact fun _ => ⟨failure, rfl⟩
  | ok output =>
    intro hend
    cases hend

theorem runFiles_failsWith_of_fails (hblock : options.block = false) (hfiles : options.files ≠ [])
    (h : Fails options input tree after) : (runFiles options tree).FailsWith after := by
  cases h with
  | blockTakesNoFiles hblock' =>
    rw [hblock] at hblock'
    cases hblock'
  | inputNotText hreads =>
    rw [readsInput, List.isEmpty_eq_false_iff.mpr hfiles] at hreads
    cases hreads
  | unknownFormat _ hformat =>
    cases houtput : options.output? with
    | none =>
      rw [runFiles_eq_iff.mpr (.outputRequired houtput)]
      exact ⟨⟨_, rfl⟩, rfl⟩
    | some directory =>
      rw [runFiles_eq_iff.mpr (.unknownFormat houtput hformat)]
      exact ⟨⟨_, rfl⟩, rfl⟩
  | outputRequired _ _ houtput =>
    rw [runFiles_eq_iff.mpr (.outputRequired houtput)]
    exact ⟨⟨_, rfl⟩, rfl⟩
  | notCreated _ _ houtput hcreated _ =>
    rw [runFiles_eq_iff.mpr (.notCreated houtput hcreated)]
    exact ⟨⟨_, rfl⟩, rfl⟩
  | badPattern _ houtput hcreated _ hfile habsent hpattern =>
    exact runFiles_failsWith_of_notValid houtput hcreated hfile (.badPattern habsent hpattern)
  | notListed _ houtput hcreated _ hfile hlisted hunlistable =>
    exact runFiles_failsWith_of_notValid houtput hcreated hfile (.notListed hlisted hunlistable)
  | notWritten _ _ houtput hcreated hexpanded hothers hp hwrite =>
    exact runFiles_failsWith_of_write_eq_error houtput hcreated hexpanded hothers hp hwrite

/-- A run with given options fails for one of the causes, and each of them makes it fail. -/
theorem runWith_failsWith_iff :
    (runWith options input tree).FailsWith after ↔ Fails options input tree after := by
  rw [runWith]
  by_cases hblock : options.block = true
  · have hnot : options.block ≠ false := by simp [hblock]
    rw [if_pos hblock, runBlock_failsWith_iff]
    constructor
    · rintro ⟨hcause, rfl⟩
      by_cases hfiles : options.files = []
      · have hreads : readsInput options = true := by simp [readsInput, hfiles, hblock]
        exact .inputNotText hreads (hcause.resolve_left (not_not_intro hfiles))
      · exact .blockTakesNoFiles hblock hfiles
    · intro h
      cases h with
      | blockTakesNoFiles _ hfiles => exact ⟨.inl hfiles, rfl⟩
      | inputNotText _ hcontent => exact ⟨.inr hcontent, rfl⟩
      | unknownFormat hother => exact absurd hother hnot
      | outputRequired hother => exact absurd hother hnot
      | notCreated hother => exact absurd hother hnot
      | badPattern hother => exact absurd hother hnot
      | notListed hother => exact absurd hother hnot
      | notWritten hother => exact absurd hother hnot
  · rw [if_neg hblock]
    have hblock : options.block = false := Bool.eq_false_iff.mpr hblock
    by_cases hfiles : options.files = []
    · rw [if_pos hfiles, runInput_failsWith_iff]
      constructor
      · rintro ⟨hcause, rfl⟩
        cases hformat : Format.ofName? options.format with
        | none => exact .unknownFormat hblock hformat
        | some format =>
          have hreads : readsInput options = true := by simp [readsInput, hfiles, hformat]
          exact .inputNotText hreads (hcause.resolve_left (by simp [hformat]))
      · intro h
        cases h with
        | blockTakesNoFiles _ hother => exact absurd hfiles hother
        | inputNotText _ hcontent => exact ⟨.inr hcontent, rfl⟩
        | unknownFormat _ hformat => exact ⟨.inl hformat, rfl⟩
        | outputRequired _ hother => exact absurd hfiles hother
        | notCreated _ hother => exact absurd hfiles hother
        | badPattern _ _ _ _ hfile => exact absurd hfiles (List.ne_nil_of_mem hfile)
        | notListed _ _ _ _ hfile => exact absurd hfiles (List.ne_nil_of_mem hfile)
        | notWritten _ hother => exact absurd hfiles hother
    · rw [if_neg hfiles]
      exact ⟨fails_of_runFiles hblock hfiles, runFiles_failsWith_of_fails hblock hfiles⟩

/-- **What failing runs leave behind.** A run that fails prints nothing. It fails for a usage error or
because the reader of the log setting breaks off, with nothing changed, or for one of the causes in
`Fails`, with the tree that stands there; and it fails whenever there is one of them. A source that
cannot be used makes no difference to how the sources behind it are written. -/
theorem run_fails_iff (arguments : List Text) (setting? : Option Text) (input : ByteArray)
    (tree : FileTree) :
    let outcome := run arguments setting? input tree
    (outcome.exitCode ≠ 0 → outcome.output = []) ∧
      (∀ after, outcome.exitCode ≠ 0 ∧ outcome.tree = after ↔
        (∃ e, parse arguments = .error e) ∧ tree = after ∨
          ∃ options, parse arguments = .ok (.run options) ∧
            (¬ Starts options setting? ∧ tree = after ∨
              Starts options setting? ∧ Fails options input tree after)) ∧
      ∀ marker format directory written current p later reason,
        readFunctions current marker p = .error reason →
        SameEnd (writeAll marker format directory written current (p :: later))
          (writeAll marker format directory written current later) := by
  intro outcome
  have houtcome : outcome = run arguments setting? input tree := rfl
  refine ⟨?_, ?_, fun _ _ _ _ _ _ _ _ => sameEnd_writeAll_skipped⟩
  · rw [run] at houtcome
    split at houtcome
    next => exact fun _ => by rw [houtcome]
    next => exact fun hexit => absurd (by rw [houtcome]) hexit
    next options _ =>
      split at houtcome
      next => exact fun _ => by rw [houtcome, Outcome.brokenOff]
      next filter _ =>
        rw [houtcome, Report.outcome]
        split
        next => exact fun hexit => absurd rfl hexit
        next => exact fun _ => rfl
  · intro after
    cases hparse : parse arguments with
    | error e => simp [houtcome, run, hparse]
    | ok request =>
      cases request with
      | help => simp [houtcome, run, hparse]
      | run options =>
        by_cases hstarts : Starts options setting?
        · obtain ⟨filter, hfilter⟩ := id hstarts
          rw [houtcome, run_eq_outcome hparse hfilter, outcome_fails_iff, runWith_failsWith_iff]
          simp [hstarts]
        · rw [houtcome, run_of_not_starts hparse hstarts]
          simp [hstarts, Outcome.brokenOff]

/-! ## Arguments that are no patterns -/

/-- A script whose name is no pattern, another one, and a directory where the output for that one
goes. -/
def presentTree : FileTree where
  entries := [
    (["a[.sh".toList], .file (encodeUtf8 (shortScript 'f'))),
    (["b.sh".toList], .file (encodeUtf8 (shortScript 'g'))),
    (["out".toList], .directory),
    (["out".toList, "b.json".toList], .directory)]
  workingDirectory := []

def presentArguments : List Text :=
  ["-o".toList, "out".toList, "a[.sh".toList, "b.sh".toList]

def presentOptions : Options :=
  { sharedNameOptions with files := ["a[.sh".toList, "b.sh".toList] }

/-- The tree with the output for the first script. -/
def presentAfter : FileTree :=
  stored presentTree '#' .json ["out".toList] presentTree ⟨"a[.sh".toList⟩

theorem isDocumented_present {name : Char} (hname : name = 'f' ∨ name = 'g') {p : Path}
    (hsource : isShellSource p = true)
    (hread : presentTree.read p = .ok (encodeUtf8 (shortScript name))) :
    isDocumented presentTree '#' p = true := by
  refine isDocumented_of_read hsource hread ?_
  rcases hname with rfl | rfl
  · decide
  · decide

/-- The output for the first script is written, and then the run ends. -/
theorem runFiles_present : (runFiles presentOptions presentTree).FailsWith presentAfter := by
  have hreport : runFiles presentOptions presentTree =
      let report := writeAll '#' .json ⟨"out".toList⟩ [] presentTree
        [⟨"a[.sh".toList⟩, ⟨"b.sh".toList⟩]
      { report with events := [] ++ report.events } :=
    runFiles_eq_iff.mpr (.expanded ⟨rfl, by rfl⟩ (by rfl) (by rfl))
  have hdirectory : LeadsToDirectory presentTree ⟨"out".toList⟩ ["out".toList] :=
    ⟨by decide, by rfl, by rfl⟩
  have hwritable : IsWritable presentTree ⟨"out".toList⟩ .json ⟨"a[.sh".toList⟩ :=
    ⟨⟨by decide, by decide⟩, by rfl, mayBePut_of_nothing_denied rfl _ _ _⟩
  have hfirst : isDocumented presentTree '#' ⟨"a[.sh".toList⟩ = true :=
    isDocumented_present (.inl rfl) (by rfl) (by rfl)
  obtain ⟨hwritten, hstep⟩ := writeAll_cons_of_isDocumented hdirectory (by rfl) hfirst hwritable
    (.refl presentTree) [] [⟨"b.sh".toList⟩]
  have hsecond : isDocumented presentAfter '#' ⟨"b.sh".toList⟩ = true :=
    (hwritten.isDocumented (by rfl)).trans (isDocumented_present (.inr rfl) (by rfl) (by rfl))
  have hlocate := hwritten.keepsDirectories.locate
    (by rfl : presentTree.locate (outputPath ⟨"out".toList⟩ .json ⟨"b.sh".toList⟩) =
      .ok ["out".toList, "b.json".toList])
  have hnode := (hwritten.directory ["out".toList, "b.json".toList]).mpr (by rfl)
  obtain ⟨cause, hwrite⟩ : ∃ cause,
      presentAfter.write (outputPath ⟨"out".toList⟩ .json ⟨"b.sh".toList⟩)
        (outputBytes presentAfter '#' .json ⟨"b.sh".toList⟩) = .error cause := by
    rw [write, presentAfter, hlocate]
    dsimp only [bind, Except.bind]
    rw [hnode]
    exact ⟨.isDirectory, rfl⟩
  have hnone : outputsOf ⟨"out".toList⟩ .json [] = [] := rfl
  rw [hnone] at hstep
  rw [hreport, hstep, ← presentAfter, writeAll_cons_of_write_eq_error hsecond hwrite]
  exact ⟨⟨_, rfl⟩, rfl⟩

/-- One directory, which may not be listed. -/
def unlistedDirectory : FileTree where
  entries := [(["a".toList], .directory)]
  workingDirectory := []
  denials := ⟨[(["a".toList], .read)]⟩

def unlistedArguments : List Text :=
  ["-o".toList, "out".toList, "a".toList]

/-- Three more ways to fail. One of the files is no pattern, but is there, and an output is written
before the run ends at another one. A directory may not be listed. And the reader of the log setting
breaks off. -/
theorem run_fails_otherwise :
    (parse presentArguments = .ok (.run presentOptions) ∧
      "a[.sh".toList ∈ presentOptions.files ∧
      (∃ cause, Glob.Pattern.ofText "a[.sh".toList = .error cause) ∧
      (run presentArguments none .empty presentTree).exitCode = 1 ∧
      presentTree.isPresent ⟨"out/a[.json".toList⟩ = false ∧
      (run presentArguments none .empty presentTree).tree.isFile ⟨"out/a[.json".toList⟩ = true) ∧
    ((run unlistedArguments none .empty unlistedDirectory).exitCode = 1 ∧
      (run unlistedArguments none .empty unlistedDirectory).errors =
        (Failure.badSource (.directoryUnreadable ⟨"a".toList⟩ .permissionDenied)).report) ∧
    (run presentArguments (some Filter.brokenSetting) .empty presentTree).exitCode = 101 := by
  have hasks : AsksForFiles presentArguments presentOptions :=
    ⟨by rfl, rfl, List.cons_ne_nil _ _⟩
  have hfilter : filterInForce? presentOptions none = some (.ofLevel .info) := by rfl
  have hplain : ∀ c ∈ ['a'], c ≠ '?' ∧ c ≠ '*' ∧ c ≠ '[' :=
    List.forall_mem_singleton.mpr (by decide)
  have hpattern : Glob.Pattern.ofText (['a'] ++ '[' :: ".sh".toList) =
      .error ⟨1, .brokenClass⟩ := Glob.ofText_of_readClass? hplain (by rfl)
  refine ⟨⟨hasks.parsed, List.mem_cons_self, ⟨_, hpattern⟩, ?_, by rfl, ?_⟩, ⟨by rfl, by rfl⟩, ?_⟩
  · rw [hasks.run hfilter]
    exact runFiles_present.outcome_exitCode _
  · rw [hasks.run hfilter, runFiles_present.outcome_tree]
    refine isFile_iff.mpr ⟨place ["out".toList] .json ⟨"a[.sh".toList⟩,
      outputBytes presentTree '#' .json ⟨"a[.sh".toList⟩, by rfl, ?_⟩
    rw [presentAfter, stored, node?_set (place_ne_nil _ _ _), if_pos rfl]
  · rw [run_of_not_starts hasks.parsed (not_starts_brokenSetting rfl rfl)]
    rfl

end ShellDoc.CommandLine
