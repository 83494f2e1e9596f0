import ShellDoc.CommandLine.Run
import ShellDoc.Proofs.Log.Setting

/-!
# The course of a run in file mode

A run in file mode takes its steps in a fixed order: the output directory, the format, the directory
made, the arguments expanded, the sources written. `FilesRun` lists the ends that it can come to,
each with what has gone well before (`runFiles_eq_iff`).

Up to the directory made, the files asked for play no part. So to compare runs on different files it
is enough to compare what they do from there on (`sameEnd_runFiles`).

Before all this a run has to get past its log setting (`Starts`). It does if no directive of the
setting has space in front of it (`starts_of_trimStart`).
-/

namespace ShellDoc.CommandLine

variable {options : Options} {tree after : FileTree} {report : Report} {filter : Filter}

/-! ## Ends -/

/-- Whether two runs leave the same tree and end in the same way: with the same output, or both with
a failure. -/
structure SameEnd (report report' : Report) : Prop where
  result : report.result.toOption = report'.result.toOption
  tree : report.tree = report'.tree

theorem SameEnd.trans {report report' report'' : Report} (h : SameEnd report report')
    (h' : SameEnd report' report'') : SameEnd report report'' :=
  ⟨h.result.trans h'.result, h.tree.trans h'.tree⟩

theorem SameEnd.outcome {report report' : Report} (h : SameEnd report report')
    (filter filter' : Filter) :
    (report.outcome filter).exitCode = (report'.outcome filter').exitCode ∧
      (report.outcome filter).output = (report'.outcome filter').output ∧
      (report.outcome filter).tree = (report'.outcome filter').tree := by
  obtain ⟨events, result, tree⟩ := report
  obtain ⟨events', result', tree'⟩ := report'
  obtain ⟨hresult, rfl⟩ := h
  cases result with
  | error failure =>
    cases result' with
    | error failure' => exact ⟨rfl, rfl, rfl⟩
    | ok output' => cases hresult
  | ok output =>
    cases result' with
    | error failure' => cases hresult
    | ok output' => exact ⟨rfl, Option.some.inj hresult, rfl⟩

/-- Whether a report ends with a failure, and with which tree. -/
def Report.FailsWith (report : Report) (after : FileTree) : Prop :=
  (∃ failure, report.result = .error failure) ∧ report.tree = after

theorem outcome_fails_iff (report : Report) (filter : Filter) :
    (report.outcome filter).exitCode ≠ 0 ∧ (report.outcome filter).tree = after ↔
      report.FailsWith after := by
  obtain ⟨events, result, tree⟩ := report
  cases result with
  | error failure => simp [Report.outcome, Report.FailsWith]
  | ok output => simp [Report.outcome, Report.FailsWith]

theorem Report.FailsWith.outcome_exitCode (h : report.FailsWith after) (filter : Filter) :
    (report.outcome filter).exitCode = 1 := by
  obtain ⟨⟨failure, hfailure⟩, _⟩ := h
  rw [Report.outcome, hfailure]

theorem Report.FailsWith.outcome_tree (h : report.FailsWith after) (filter : Filter) :
    (report.outcome filter).tree = after :=
  ((outcome_fails_iff report filter).mpr h).2

/-! ## Courses -/

/-- Whether options name an output directory and a known format. -/
structure WritesTo (options : Options) (directory : Path) (format : Format) : Prop where
  directory : options.output? = some directory
  format : Format.ofName? options.format = some format

/-- The courses that a run in file mode can take, with its report. -/
inductive FilesRun (options : Options) (tree : FileTree) : Report → Prop
  | outputRequired (output : options.output? = none) :
    FilesRun options tree ⟨[], .error .outputRequired, tree⟩
  | unknownFormat {directory : Path} (output : options.output? = some directory)
    (format : Format.ofName? options.format = none) :
    FilesRun options tree ⟨[], .error (.unknownFormat options.format), tree⟩
  | notCreated {directory : Path} {format : Format} {made : FileTree} {cause : FileError}
    (output : WritesTo options directory format)
    (created : tree.createDirectories directory = ⟨made, some cause⟩) :
    FilesRun options tree ⟨[], .error (.directoryNotCreated directory cause), made⟩
  | notExpanded {directory : Path} {format : Format} {made : FileTree} {events : List Event}
    {failure : Failure} (output : WritesTo options directory format)
    (created : tree.createDirectories directory = ⟨made, none⟩)
    (expanded : expand made options.files = (events, .error failure)) :
    FilesRun options tree ⟨events, .error failure, made⟩
  | expanded {directory : Path} {format : Format} {made : FileTree} {events : List Event}
    {sources : List Path} (output : WritesTo options directory format)
    (created : tree.createDirectories directory = ⟨made, none⟩)
    (expanded : expand made options.files = (events, .ok sources)) :
    FilesRun options tree
      (let report := writeAll options.marker format directory [] made sources
      { report with events := events ++ report.events })

theorem WritesTo.formatOf {directory : Path} {format : Format}
    (h : WritesTo options directory format) : formatOf options = .ok format := by
  rw [CommandLine.formatOf, h.format]

/-- What a run in file mode does when its output directory is there: it finds the sources and writes
their outputs. -/
def runMade (options : Options) (directory : Path) (format : Format) (made : FileTree) : Report :=
  match expand made options.files with
  | (events, .error failure) => ⟨events, .error failure, made⟩
  | (events, .ok sources) =>
    let report := writeAll options.marker format directory [] made sources
    { report with events := events ++ report.events }

theorem runFiles_of_created {directory : Path} {format : Format} {made : FileTree}
    (houtput : WritesTo options directory format)
    (hcreated : tree.createDirectories directory = ⟨made, none⟩) :
    runFiles options tree = runMade options directory format made := by
  rw [runFiles, houtput.directory]
  dsimp only
  rw [houtput.formatOf]
  dsimp only
  rw [hcreated]
  rfl

/-- A run in file mode takes exactly one of the courses. -/
theorem runFiles_eq_iff : runFiles options tree = report ↔ FilesRun options tree report := by
  constructor
  · rintro rfl
    rw [runFiles]
    split
    next houtput => exact .outputRequired houtput
    next directory houtput =>
      cases hformat : Format.ofName? options.format with
      | none =>
        rw [formatOf, hformat]
        exact .unknownFormat houtput hformat
      | some format =>
        rw [formatOf, hformat]
        dsimp only
        split
        next made cause hcreated => exact .notCreated ⟨houtput, hformat⟩ hcreated
        next made hcreated =>
          split
          next events failure hexpanded =>
            exact .notExpanded ⟨houtput, hformat⟩ hcreated hexpanded
          next events sources hexpanded =>
            exact .expanded ⟨houtput, hformat⟩ hcreated hexpanded
  · intro h
    cases h with
    | outputRequired houtput => rw [runFiles, houtput]
    | unknownFormat houtput hformat =>
      rw [runFiles, houtput]
      dsimp only
      rw [formatOf, hformat]
    | notCreated houtput hcreated =>
      rw [runFiles, houtput.directory]
      dsimp only
      rw [houtput.formatOf]
      dsimp only
      rw [hcreated]
    | notExpanded houtput hcreated hexpanded =>
      rw [runFiles_of_created houtput hcreated, runMade, hexpanded]
    | expanded houtput hcreated hexpanded =>
      rw [runFiles_of_created houtput hcreated, runMade, hexpanded]

/-! ## Runs with the same options -/

variable {options' : Options}

/-- Two runs with the same options but for their files come to the same end if they do so once the
output directory is there. -/
theorem sameEnd_runFiles (hoptions : { options' with files := options.files } = options)
    (hmade : ∀ directory format made, WritesTo options directory format →
      tree.createDirectories directory = ⟨made, none⟩ →
      SameEnd (runMade options directory format made) (runMade options' directory format made)) :
    SameEnd (runFiles options tree) (runFiles options' tree) := by
  have hdirectory : options'.output? = options.output? := by rw [← hoptions]
  have hname : options'.format = options.format := by rw [← hoptions]
  have hwrites : ∀ {directory format}, WritesTo options directory format →
      WritesTo options' directory format := fun h =>
    ⟨hdirectory.trans h.directory, hname ▸ h.format⟩
  have hexpanded : ∀ {directory format made}, WritesTo options directory format →
      tree.createDirectories directory = ⟨made, none⟩ →
      SameEnd (runFiles options tree) (runFiles options' tree) := by
    intro directory format made houtput hcreated
    rw [runFiles_of_created houtput hcreated, runFiles_of_created (hwrites houtput) hcreated]
    exact hmade directory format made houtput hcreated
  obtain ⟨report, hreport⟩ : ∃ report, runFiles options tree = report := ⟨_, rfl⟩
  cases runFiles_eq_iff.mp hreport with
  | outputRequired houtput =>
    rw [hreport, runFiles_eq_iff.mpr (.outputRequired (hdirectory.trans houtput))]
    exact ⟨rfl, rfl⟩
  | unknownFormat houtput hformat =>
    rw [hreport, runFiles_eq_iff.mpr (.unknownFormat (hdirectory.trans houtput) (hname ▸ hformat))]
    exact ⟨rfl, rfl⟩
  | notCreated houtput hcreated =>
    rw [hreport, runFiles_eq_iff.mpr (.notCreated (hwrites houtput) hcreated)]
    exact ⟨rfl, rfl⟩
  | notExpanded houtput hcreated => exact hexpanded houtput hcreated
  | expanded houtput hcreated => exact hexpanded houtput hcreated

/-- Two runs that find their sources come to the same end if the sources are written alike. -/
theorem sameEnd_runMade {directory : Path} {format : Format} {made : FileTree}
    {sources sources' : List Path} (hmarker : options'.marker = options.marker)
    (hexpand : (expand made options.files).2 = .ok sources)
    (hexpand' : (expand made options'.files).2 = .ok sources')
    (hwrite : SameEnd (writeAll options.marker format directory [] made sources)
      (writeAll options.marker format directory [] made sources')) :
    SameEnd (runMade options directory format made) (runMade options' directory format made) := by
  have hpair : expand made options.files = ((expand made options.files).1, .ok sources) :=
    Prod.ext rfl hexpand
  have hpair' : expand made options'.files = ((expand made options'.files).1, .ok sources') :=
    Prod.ext rfl hexpand'
  rw [runMade, runMade, hpair, hpair', hmarker]
  exact ⟨hwrite.result, hwrite.tree⟩

/-! ## Whole runs -/

variable {arguments arguments' : List Text} {setting? setting'? : Option Text}
  {input input' : ByteArray}

/-- Whether a run gets past its log setting: the reader of the setting, if the flags leave it to the
setting what is shown, does not break off. -/
def Starts (options : Options) (setting? : Option Text) : Prop :=
  ∃ filter, filterInForce? options setting? = some filter

/-- A run gets past every log setting none of whose directives has space in front of it. -/
theorem starts_of_trimStart (h : ∀ setting ∈ setting?, ∀ item ∈ setting.splitOn ',',
    Text.trimStart item = item) : Starts options setting? := by
  rw [Starts, filterInForce?]
  split
  next => exact ⟨_, rfl⟩
  next =>
    split
    next => exact ⟨_, rfl⟩
    next =>
      split
      next => exact ⟨_, rfl⟩
      next hsetting =>
        obtain ⟨setting, hmem, hbroken⟩ := Option.map_eq_some_iff.mp hsetting
        exact absurd hbroken (Filter.ofSetting_ne_brokenOff (h setting hmem))
      next => exact ⟨_, rfl⟩
      next => exact ⟨_, rfl⟩

theorem not_starts_brokenSetting (hverbose : options.verbose = false)
    (hquiet : options.quiet = false) : ¬ Starts options (some Filter.brokenSetting) := by
  rintro ⟨filter, hfilter⟩
  rw [filterInForce?, hverbose, hquiet, Option.map_some, Filter.ofSetting_brokenSetting] at hfilter
  cases hfilter

theorem filterInForce?_eq_none (h : ¬ Starts options setting?) :
    filterInForce? options setting? = none :=
  Option.eq_none_iff_forall_ne_some.mpr fun filter hfilter => h ⟨filter, hfilter⟩

/-- When its arguments can be read and it gets past its log setting, a run leaves what its report
says, and shows of the events what the filter in force admits. -/
theorem run_eq_outcome (h : parse arguments = .ok (.run options))
    (hfilter : filterInForce? options setting? = some filter) (input : ByteArray)
    (tree : FileTree) :
    run arguments setting? input tree = (runWith options input tree).outcome filter := by
  rw [run, h]
  dsimp only
  rw [hfilter]

/-- When the reader of the log setting breaks off, nothing is done. -/
theorem run_of_not_starts (h : parse arguments = .ok (.run options))
    (hstarts : ¬ Starts options setting?) (input : ByteArray) (tree : FileTree) :
    run arguments setting? input tree = .brokenOff tree := by
  rw [run, h]
  dsimp only
  rw [filterInForce?_eq_none hstarts]

/-- A run that ends well got past its log setting. -/
theorem starts_of_exitCode (h : parse arguments = .ok (.run options))
    (hexit : (run arguments setting? input tree).exitCode = 0) : Starts options setting? := by
  refine Classical.byContradiction fun hstarts => ?_
  rw [run_of_not_starts h hstarts] at hexit
  cases hexit

/-- Two runs that come to the same end leave the same behind, if both get past their log settings or
neither does. -/
theorem SameEnd.run (h : parse arguments = .ok (.run options))
    (h' : parse arguments' = .ok (.run options'))
    (hstarts : Starts options setting? ↔ Starts options' setting'?)
    (hend : SameEnd (runWith options input tree) (runWith options' input' tree)) :
    let outcome := run arguments setting? input tree
    let outcome' := run arguments' setting'? input' tree
    outcome.exitCode = outcome'.exitCode ∧ outcome.output = outcome'.output ∧
      outcome.tree = outcome'.tree := by
  by_cases hfirst : Starts options setting?
  · obtain ⟨filter, hfilter⟩ := hfirst
    obtain ⟨filter', hfilter'⟩ := hstarts.mp ⟨filter, hfilter⟩
    rw [run_eq_outcome h hfilter, run_eq_outcome h' hfilter']
    exact hend.outcome filter filter'
  · rw [run_of_not_starts h hfirst, run_of_not_starts h' (mt hstarts.mpr hfirst)]
    exact ⟨rfl, rfl, rfl⟩

/-- Whether arguments ask for a run in file mode. -/
structure AsksForFiles (arguments : List Text) (options : Options) : Prop where
  parsed : parse arguments = .ok (.run options)
  block : options.block = false
  files : options.files ≠ []

theorem AsksForFiles.runWith (h : AsksForFiles arguments options) (input : ByteArray)
    (tree : FileTree) : runWith options input tree = runFiles options tree := by
  rw [CommandLine.runWith, if_neg (by rw [h.block]; decide), if_neg h.files]

theorem AsksForFiles.run (h : AsksForFiles arguments options)
    (hfilter : filterInForce? options setting? = some filter) (input : ByteArray)
    (tree : FileTree) :
    run arguments setting? input tree = (runFiles options tree).outcome filter := by
  rw [run_eq_outcome h.parsed hfilter, h.runWith]

/-- Two runs in file mode with the same options but for their files leave the same behind if they do
so once the output directory is there, and both get past their log settings or neither does. -/
theorem run_eq_of_sameEnd (h : AsksForFiles arguments options)
    (h' : AsksForFiles arguments' options')
    (hoptions : { options' with files := options.files } = options)
    (hsettings : Starts options setting? ↔ Starts options setting'?)
    (hmade : ∀ directory format made, WritesTo options directory format →
      tree.createDirectories directory = ⟨made, none⟩ →
      SameEnd (runMade options directory format made) (runMade options' directory format made)) :
    let outcome := CommandLine.run arguments setting? input tree
    let outcome' := CommandLine.run arguments' setting'? input' tree
    outcome.exitCode = outcome'.exitCode ∧ outcome.output = outcome'.output ∧
      outcome.tree = outcome'.tree := by
  have hstarts : Starts options' setting'? ↔ Starts options setting'? := by
    rw [← hoptions]
    exact .rfl
  have hend := sameEnd_runFiles hoptions hmade
  rw [← h.runWith input, ← h'.runWith input'] at hend
  exact hend.run h.parsed h'.parsed (hsettings.trans hstarts.symm)

end ShellDoc.CommandLine
