import ShellDoc.Proofs.CommandLine.Arguments
import ShellDoc.Proofs.CommandLine.Course
import ShellDoc.Proofs.CommandLine.Expand
import ShellDoc.Proofs.CommandLine.Write
import ShellDoc.Proofs.FileTree.Create

/-!
# Runs that write files

What a run in file mode leaves behind if nothing stops it: an output for each documented source
under the name of the source, that of the last one if several share a name, and no other file but
those that were there (`run_files`).

Three things may still stop it when all is in order with its arguments and its output directory
(`run_files_stopped`). A name may be too long for the output although it is not for the source, since
the extension of an output can be longer. An output may be there already and not be open to writing.
And the reader of the log setting may break off.
-/

namespace ShellDoc.CommandLine

open Source FileTree

variable {arguments : List Text} {options : Options} {directory : Path} {format : Format}
  {tree made : FileTree}

/-- A run in file mode whose output directory can be made, where `made` is the tree with it. -/
structure IsFileRun (arguments : List Text) (options : Options) (directory : Path)
    (format : Format) (tree made : FileTree) : Prop where
  /-- The arguments ask for this run. -/
  parsed : parse arguments = .ok (.run options)
  /-- The input is not a comment block. -/
  block : options.block = false
  /-- There are files. -/
  files : options.files ≠ []
  /-- There is an output directory. -/
  output : options.output? = some directory
  /-- The format is known. -/
  known : Format.ofName? options.format = some format
  /-- The output directory can be made. -/
  created : tree.createDirectories directory = ⟨made, none⟩
  /-- Arguments that lead nowhere are patterns, and directories may be listed. -/
  valid : ∀ argument ∈ options.files, IsValidArgument made argument
  /-- No directory stands where an output goes. -/
  free : ∀ sources, (expand made options.files).2 = .ok sources → ∀ p ∈ sources,
    isDocumented made options.marker p = true →
    made.isDirectory (outputPath directory format p) = false

theorem IsFileRun.grown (h : IsFileRun arguments options directory format tree made) :
    Grown tree made := by
  have hgrown := grown_createDirectories tree directory
  rwa [h.created] at hgrown

/-- An output directory that has been made is there. -/
theorem exists_leadsToDirectory (hne : directory.text ≠ [])
    (hcreated : tree.createDirectories directory = ⟨made, none⟩) :
    ∃ root, LeadsToDirectory made directory root := by
  have hdirectory := isDirectory_createDirectories hne
    (by rw [hcreated] : (tree.createDirectories directory).error? = none)
  rw [hcreated] at hdirectory
  obtain ⟨root, hlocate, hnode⟩ := isDirectory_iff.mp hdirectory
  exact ⟨root, hne, hlocate, hnode⟩

theorem IsFileRun.exists_leadsToDirectory
    (h : IsFileRun arguments options directory format tree made) :
    ∃ root, LeadsToDirectory made directory root :=
  CommandLine.exists_leadsToDirectory (output_ne_nil_of_parse h.parsed h.output) h.created

theorem IsFileRun.writesTo (h : IsFileRun arguments options directory format tree made) :
    WritesTo options directory format :=
  ⟨h.output, h.known⟩

theorem IsFileRun.asksForFiles (h : IsFileRun arguments options directory format tree made) :
    AsksForFiles arguments options :=
  ⟨h.parsed, h.block, h.files⟩

/-- The report of a run in file mode is that of writing its sources. -/
theorem IsFileRun.exists_report (h : IsFileRun arguments options directory format tree made)
    (input : ByteArray) :
    ∃ events sources, (expand made options.files).2 = .ok sources ∧
      (∀ p ∈ sources, made.isFile p = true) ∧
      events.filter Event.isOverwrite = [] ∧
      runWith options input tree =
        let report := writeAll options.marker format directory [] made sources
        { report with events := events ++ report.events } := by
  obtain ⟨events, sources, hexpand, hevents, hfiles⟩ := exists_expand_eq h.valid
  refine ⟨events, sources, by rw [hexpand], hfiles, ?_, ?_⟩
  · refine List.filter_eq_nil_iff.mpr fun e he => ?_
    obtain ⟨argument, rfl⟩ := hevents e he
    exact Bool.noConfusion
  · rw [h.asksForFiles.runWith]
    exact runFiles_eq_iff.mpr (.expanded h.writesTo h.created hexpand)

/-- What the input mode prints of a text is the page of its functions. -/
theorem IsFileRun.runWith_input (h : IsFileRun arguments options directory format tree made)
    {content : ByteArray} {script : Text} (hscript : decodeUtf8? content = some script) :
    (runWith { options with files := [] } content made).result =
      .ok (format.print (Script.functions options.marker script)) := by
  have hformat : formatOf { options with files := [] } = .ok format := h.writesTo.formatOf
  have hread : readInput content = .ok script := by rw [readInput, hscript]
  rw [runWith, if_neg (by rw [h.block]; decide), if_pos rfl, runInput, hformat, hread]
  rfl

/-- A run in file mode succeeds and prints nothing, if it gets past its log setting and all outputs
may be written and keep to the limits of file systems. It leaves an output for each documented source
with the text that the input mode prints for the last of those that share its name, and apart from
outputs the files that were there. It reports exactly the outputs that replace others. -/
theorem run_files (h : IsFileRun arguments options directory format tree made)
    (hlimits : ∀ sources, (expand made options.files).2 = .ok sources → ∀ p ∈ sources,
      isDocumented made options.marker p = true → WithinLimits directory format p)
    (hallowed : ∀ sources, (expand made options.files).2 = .ok sources → ∀ p ∈ sources,
      isDocumented made options.marker p = true → MayBePut made directory format p)
    {setting? : Option Text} {filter : Filter}
    (hfilter : filterInForce? options setting? = some filter) (input : ByteArray) :
    let outcome := run arguments setting? input tree
    ∃ sources, (expand made options.files).2 = .ok sources ∧
      let documented := sources.filter (isDocumented made options.marker)
      outcome.exitCode = 0 ∧ outcome.output = [] ∧
      (∀ p ∈ documented, ∃ last content text,
        documented.reverse.find? (sharesOutput p) = some last ∧
        made.read last = .ok content ∧
        (runWith { options with files := [] } content made).result = .ok text ∧
        outcome.tree.Holds (outputPath directory format p) (encodeUtf8 text)) ∧
      (∀ location content,
        (∀ p ∈ documented, outcome.tree.locate (outputPath directory format p) ≠ .ok location) →
        (outcome.tree.node? location = some (.file content) ↔
          tree.node? location = some (.file content))) ∧
      ∃ events, outcome.errors = shown filter events ∧
        events.filter Event.isOverwrite = overwrites directory format documented := by
  intro outcome
  obtain ⟨root, hdirectory⟩ := h.exists_leadsToDirectory
  obtain ⟨events, sources, hexpand, hfiles, hevents, hreport⟩ := h.exists_report input
  have hallowed := hallowed sources hexpand
  obtain ⟨reported, hwrite, hwritten, hoverwrites⟩ :=
    exists_writeAll_eq hdirectory hfiles fun p hp hdocumented =>
      ⟨hlimits sources hexpand p hp hdocumented, h.free sources hexpand p hp hdocumented,
        hallowed p hp hdocumented⟩
  have hsame := hwritten.toSameSources
  have houtcome : outcome = ⟨0, [], shown filter (events ++ reported),
      (sources.filter (isDocumented made options.marker)).foldl
        (stored made options.marker format root) made⟩ := by
    show run arguments setting? input tree = _
    rw [run_eq_outcome h.parsed hfilter, hreport, hwrite]
    rfl
  have hplace : ∀ p ∈ sources.filter (isDocumented made options.marker),
      made.locate (outputPath directory format p) = .ok (place root format p) := by
    intro p hp
    obtain ⟨hmem, hdocumented⟩ := List.mem_filter.mp hp
    exact locate_outputPath hdirectory (hfiles p hmem) (hlimits sources hexpand p hmem hdocumented)
      (hallowed p hmem hdocumented root hdirectory.locate).1
  rw [houtcome]
  refine ⟨sources, hexpand, rfl, rfl, fun p hp => ?_, fun location content helse => ?_,
    events ++ reported, rfl, ?_⟩
  · obtain ⟨last, hlast, hmem, hholds⟩ := exists_last_of_stored hp (hplace p hp) hsame
    obtain ⟨content, script, hcontent, hscript, hfunctions⟩ :=
      exists_of_isDocumented (List.mem_filter.mp hmem).2
    refine ⟨last, content, _, hlast, hcontent, h.runWith_input hscript, ?_⟩
    rw [← hfunctions, ← outputBytes]
    exact hholds
  · have hne : ∀ p ∈ sources.filter (isDocumented made options.marker),
        place root format p ≠ location := by
      rintro p hp rfl
      exact helse p hp (hsame.keepsDirectories.locate (hplace p hp))
    rw [node?_stored_of_ne hne]
    exact h.grown.file_iff location content
  · rw [List.filter_append, hevents, List.nil_append]
    exact hoverwrites

/-- What holds of the sources of a run holds of the documented ones that it finds. -/
theorem forall_of_expand {found : List Path} {P : Path → Prop}
    (hexpand : (expand made options.files).2 = .ok found) (h : ∀ p ∈ found, P p) :
    ∀ sources, (expand made options.files).2 = .ok sources → ∀ p ∈ sources,
      isDocumented made options.marker p = true → P p := by
  intro sources hsources p hp _
  obtain rfl : found = sources := Except.ok.inj (hexpand.symm.trans hsources)
  exact h p hp

/-- A script of one function. -/
def shortScript (name : Char) : Text :=
  name :: "() \x7b\n\x7d\n".toList

/-- Two scripts in different directories whose outputs share a name. -/
def sharedNameTree : FileTree where
  entries := [
    (["a".toList], .directory),
    (["a".toList, "x.sh".toList], .file (encodeUtf8 (shortScript 'f'))),
    (["b".toList], .directory),
    (["b".toList, "x.zsh".toList], .file (encodeUtf8 (shortScript 'g')))]
  workingDirectory := []

/-- The tree with the output directory. -/
def sharedNameMade : FileTree :=
  sharedNameTree.set ["out".toList] .directory

/-- Arguments that name both scripts, the later one first. -/
def sharedNameArguments : List Text :=
  ["b/x.zsh".toList, "-o".toList, "out".toList, "a/x.sh".toList]

def sharedNameOptions : Options where
  files := ["b/x.zsh".toList, "a/x.sh".toList]
  output? := some ⟨"out".toList⟩
  format := "json".toList
  marker := '#'
  block := false
  verbose := false
  quiet := false

theorem expand_sharedName : (expand sharedNameMade sharedNameOptions.files).2 =
    .ok [⟨"a/x.sh".toList⟩, ⟨"b/x.zsh".toList⟩] := by
  rfl

theorem isFileRun_sharedName :
    IsFileRun sharedNameArguments sharedNameOptions ⟨"out".toList⟩ .json sharedNameTree
      sharedNameMade where
  parsed := by rfl
  block := rfl
  files := List.cons_ne_nil _ _
  output := rfl
  known := by rfl
  created := by rfl
  valid := by
    refine List.forall_mem_cons.mpr ⟨.inl ?_, List.forall_mem_singleton.mpr (.inl ?_)⟩
    · rfl
    · rfl
  free := by
    refine forall_of_expand expand_sharedName
      (List.forall_mem_cons.mpr ⟨?_, List.forall_mem_singleton.mpr ?_⟩)
    · rfl
    · rfl

theorem documented_sharedName :
    [(⟨"a/x.sh".toList⟩ : Path), ⟨"b/x.zsh".toList⟩].filter
        (isDocumented sharedNameMade sharedNameOptions.marker) =
      [⟨"a/x.sh".toList⟩, ⟨"b/x.zsh".toList⟩] := by
  have hfirst : Script.functions '#' (shortScript 'f') ≠ [] := by decide
  have hsecond : Script.functions '#' (shortScript 'g') ≠ [] := by decide
  refine List.filter_eq_self.mpr
    (List.forall_mem_cons.mpr ⟨?_, List.forall_mem_singleton.mpr ?_⟩)
  · exact isDocumented_of_read (by rfl) (by rfl) hfirst
  · exact isDocumented_of_read (by rfl) (by rfl) hsecond

/-- Of two scripts that share a name the second one stays, and replacing the first is reported. -/
theorem run_files_sharedName :
    let outcome := run sharedNameArguments none .empty sharedNameTree
    outcome.exitCode = 0 ∧
      outcome.tree.Holds ⟨"out/x.json".toList⟩
        (encodeUtf8 (Format.json.print (Script.functions '#' (shortScript 'g')))) ∧
      ∃ events, outcome.errors = shown (.ofLevel .info) events ∧
        events.filter Event.isOverwrite = [.overwrites ⟨"b/x.zsh".toList⟩ ⟨"a/x.sh".toList⟩
          ⟨"out/x.json".toList⟩] := by
  have hlimits : ∀ sources, (expand sharedNameMade sharedNameOptions.files).2 = .ok sources →
      ∀ p ∈ sources, isDocumented sharedNameMade sharedNameOptions.marker p = true →
        WithinLimits ⟨"out".toList⟩ .json p := by
    refine forall_of_expand expand_sharedName
      (List.forall_mem_cons.mpr ⟨⟨?_, ?_⟩, List.forall_mem_singleton.mpr ⟨?_, ?_⟩⟩)
    all_goals decide
  have hfilter : filterInForce? sharedNameOptions none = some (.ofLevel .info) := by rfl
  obtain ⟨sources, hsources, hexit, -, houtputs, -, events, herrors, hevents⟩ :=
    run_files isFileRun_sharedName hlimits
      (fun _ _ _ _ _ => mayBePut_of_nothing_denied rfl _ _ _) hfilter .empty
  rw [expand_sharedName] at hsources
  obtain rfl := Except.ok.inj hsources
  rw [documented_sharedName] at houtputs hevents
  obtain ⟨last, content, text, hlast, hcontent, htext, hholds⟩ := houtputs _ List.mem_cons_self
  obtain rfl : (⟨"b/x.zsh".toList⟩ : Path) = last := Option.some.inj hlast
  obtain rfl : encodeUtf8 (shortScript 'g') = content := Except.ok.inj hcontent
  rw [isFileRun_sharedName.runWith_input (decodeUtf8?_encodeUtf8 _)] at htext
  obtain rfl := Except.ok.inj htext
  exact ⟨hexit, hholds, events, herrors, hevents⟩

/-! ## What stops a run -/

variable {sources : List Path} {p : Path} {setting? : Option Text}

/-- A run ends at an argument that is not valid. -/
theorem runFiles_failsWith_of_notValid (houtput : WritesTo options directory format)
    (hcreated : tree.createDirectories directory = ⟨made, none⟩) {argument : Text}
    {failure : Failure} (hargument : argument ∈ options.files)
    (hinvalid : NotValid made argument failure) : (runFiles options tree).FailsWith made := by
  obtain ⟨failure', hexpanded⟩ := exists_expand_eq_error hargument hinvalid
  rw [runFiles_eq_iff.mpr (.notExpanded houtput hcreated (Prod.ext rfl hexpanded))]
  exact ⟨⟨failure', rfl⟩, rfl⟩

theorem exitCode_of_notValid (h : AsksForFiles arguments options)
    (houtput : WritesTo options directory format)
    (hcreated : tree.createDirectories directory = ⟨made, none⟩) {argument : Text}
    {failure : Failure} (hargument : argument ∈ options.files)
    (hinvalid : NotValid made argument failure) (hstarts : Starts options setting?)
    (input : ByteArray) : (run arguments setting? input tree).exitCode = 1 := by
  obtain ⟨filter, hfilter⟩ := hstarts
  rw [h.run hfilter]
  exact (runFiles_failsWith_of_notValid houtput hcreated hargument hinvalid).outcome_exitCode filter

/-- A run succeeds if nothing stands in the way of its outputs. -/
theorem exitCode_of_isWritable (h : AsksForFiles arguments options)
    (houtput : WritesTo options directory format)
    (hcreated : tree.createDirectories directory = ⟨made, none⟩)
    (hexpand : (expand made options.files).2 = .ok sources)
    (hwritable : ∀ p ∈ sources, IsWritable made directory format p)
    (hstarts : Starts options setting?) (input : ByteArray) :
    (run arguments setting? input tree).exitCode = 0 := by
  obtain ⟨filter, hfilter⟩ := hstarts
  obtain ⟨root, hdirectory⟩ :=
    exists_leadsToDirectory (output_ne_nil_of_parse h.parsed houtput.directory) hcreated
  obtain ⟨events, hwrite, _, _⟩ := exists_writeAll_eq hdirectory
    (fun p => isFile_of_expand hexpand) fun p hp _ => hwritable p hp
  rw [h.run hfilter, runFiles_eq_iff.mpr (.expanded houtput hcreated (Prod.ext rfl hexpand)),
    hwrite]
  rfl

/-- A run fails if something stands in the way of one of its outputs. -/
theorem exitCode_of_not_isWritable (h : AsksForFiles arguments options)
    (houtput : WritesTo options directory format)
    (hcreated : tree.createDirectories directory = ⟨made, none⟩)
    (hexpand : (expand made options.files).2 = .ok sources) (hmem : p ∈ sources)
    (hp : isDocumented made options.marker p = true)
    (hwritable : ¬ IsWritable made directory format p)
    (hstarts : Starts options setting?) (input : ByteArray) :
    (run arguments setting? input tree).exitCode = 1 := by
  obtain ⟨filter, hfilter⟩ := hstarts
  obtain ⟨root, hdirectory⟩ :=
    exists_leadsToDirectory (output_ne_nil_of_parse h.parsed houtput.directory) hcreated
  rw [h.run hfilter, runFiles_eq_iff.mpr (.expanded houtput hcreated (Prod.ext rfl hexpand)),
    Report.outcome]
  dsimp only
  cases hwrite : (writeAll options.marker format directory [] made sources).result with
  | error failure => rfl
  | ok output =>
    exact absurd (isWritable_of_writeAll hdirectory (fun p => isFile_of_expand hexpand) (.refl made)
      hwrite p hmem hp) hwritable

/-- A name of 254 bytes. The output has two more. -/
def longName : Text :=
  List.replicate 251 'x' ++ ".sh".toList

/-- One script with a long name. -/
def longNameTree : FileTree where
  entries := [([longName], .file (encodeUtf8 (shortScript 'f')))]
  workingDirectory := []

/-- The tree with the output directory. -/
def longNameMade : FileTree :=
  longNameTree.set ["out".toList] .directory

def longNameArguments : List Text :=
  ["-o".toList, "out".toList, longName]

def longNameOptions : Options :=
  { sharedNameOptions with files := [longName] }

set_option maxRecDepth 4000 in
theorem expand_longName :
    (expand longNameMade longNameOptions.files).2 = .ok [⟨longName⟩] := by
  rfl

set_option maxRecDepth 4000 in
theorem isFileRun_longName :
    IsFileRun longNameArguments longNameOptions ⟨"out".toList⟩ .json longNameTree
      longNameMade where
  parsed := by rfl
  block := rfl
  files := List.cons_ne_nil _ _
  output := rfl
  known := by rfl
  created := by rfl
  valid := List.forall_mem_singleton.mpr (.inl (by rfl))
  free := forall_of_expand expand_longName (List.forall_mem_singleton.mpr (by rfl))

set_option maxRecDepth 4000 in
theorem exitCode_longName :
    (run longNameArguments none .empty longNameTree).exitCode = 1 := by
  have hread : longNameMade.read ⟨longName⟩ = .ok (encodeUtf8 (shortScript 'f')) := by rfl
  have hdocumented : isDocumented longNameMade '#' ⟨longName⟩ = true :=
    isDocumented_of_read (by rfl) hread (by decide)
  have hwritable : ¬ IsWritable longNameMade ⟨"out".toList⟩ .json ⟨longName⟩ := fun h =>
    absurd h.limits.name (by decide)
  exact exitCode_of_not_isWritable isFileRun_longName.asksForFiles isFileRun_longName.writesTo
    isFileRun_longName.created expand_longName (List.mem_singleton_self _)
    hdocumented hwritable ⟨_, rfl⟩ .empty

/-- One script whose output is there already, and may not be written over. -/
def deniedTree : FileTree where
  entries := [
    (["out".toList], .directory),
    (["out".toList, "x.json".toList], .file .empty),
    (["x.sh".toList], .file (encodeUtf8 (shortScript 'f')))]
  workingDirectory := []
  denials := ⟨[(["out".toList, "x.json".toList], .write)]⟩

def deniedArguments : List Text :=
  ["-o".toList, "out".toList, "x.sh".toList]

def deniedOptions : Options :=
  { sharedNameOptions with files := ["x.sh".toList] }

theorem expand_denied : (expand deniedTree deniedOptions.files).2 = .ok [⟨"x.sh".toList⟩] := by
  rfl

theorem isFileRun_denied :
    IsFileRun deniedArguments deniedOptions ⟨"out".toList⟩ .json deniedTree deniedTree where
  parsed := by rfl
  block := rfl
  files := List.cons_ne_nil _ _
  output := rfl
  known := by rfl
  created := by rfl
  valid := List.forall_mem_singleton.mpr (.inl (by rfl))
  free := forall_of_expand expand_denied (List.forall_mem_singleton.mpr (by rfl))

theorem exitCode_denied : (run deniedArguments none .empty deniedTree).exitCode = 1 := by
  have hdocumented : isDocumented deniedTree '#' ⟨"x.sh".toList⟩ = true :=
    isDocumented_of_read (by rfl) (by rfl) (by decide : Script.functions '#' (shortScript 'f') ≠ [])
  have hwritable : ¬ IsWritable deniedTree ⟨"out".toList⟩ .json ⟨"x.sh".toList⟩ := by
    intro h
    obtain ⟨_, hput⟩ := h.allowed ["out".toList] (by rfl)
    cases hput
  exact exitCode_of_not_isWritable isFileRun_denied.asksForFiles isFileRun_denied.writesTo
    isFileRun_denied.created expand_denied (List.mem_singleton_self _)
    hdocumented hwritable ⟨_, rfl⟩ .empty

/-- Three runs in file mode that fail although their output directories can be made, their formats
are known, all their arguments are files and no directory stands where an output goes: the name of an
output is too long, an output may not be written over, and the reader of the log setting breaks
off. -/
theorem run_files_stopped :
    (IsFileRun longNameArguments longNameOptions ⟨"out".toList⟩ .json longNameTree longNameMade ∧
      (run longNameArguments none .empty longNameTree).exitCode = 1) ∧
    (IsFileRun deniedArguments deniedOptions ⟨"out".toList⟩ .json deniedTree deniedTree ∧
      (run deniedArguments none .empty deniedTree).exitCode = 1) ∧
    (IsFileRun sharedNameArguments sharedNameOptions ⟨"out".toList⟩ .json sharedNameTree
        sharedNameMade ∧
      (run sharedNameArguments (some Filter.brokenSetting) .empty
        sharedNameTree).exitCode = 101) := by
  refine ⟨⟨isFileRun_longName, exitCode_longName⟩, ⟨isFileRun_denied, exitCode_denied⟩,
    isFileRun_sharedName, ?_⟩
  rw [run_of_not_starts isFileRun_sharedName.parsed (not_starts_brokenSetting rfl rfl)]
  rfl

end ShellDoc.CommandLine
