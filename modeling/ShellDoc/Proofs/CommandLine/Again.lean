import Mathlib
import ShellDoc.Proofs.CommandLine.Course
import ShellDoc.Proofs.CommandLine.Expand
import ShellDoc.Proofs.CommandLine.Files
import ShellDoc.Proofs.FileTree.Repeat
import ShellDoc.Proofs.Glob.Search

/-!
# The same run again

A run in file mode that has succeeded can be repeated, and then changes nothing (`run_again`). The
second run finds the outputs of the first, but none of them is a source, and no pattern that is
spelled like an output finds one. So it finds the same sources as the first in the same order, and
writes the same outputs where they are.
-/

namespace ShellDoc.CommandLine

open Source FileTree Glob

variable {before after : FileTree} {p : Path} {root : Location} {format : Format} {argument : Text}

/-! ## Arguments that name outputs -/

/-- Whether a text, at the end of a path, leads to no source. -/
structure IsForeign (ending : Text) : Prop where
  plain : IsPlainEnding ending
  ne_dot : ending ≠ ['.']
  isSourceName : ∀ stem, isSourceName (stem ++ ending) = false

theorem isForeign_dots : IsForeign ['.', '.'] := by
  refine ⟨⟨?_, ?_, ?_, ?_, ?_, ?_⟩, ?_, fun stem => ?_⟩
  case refine_8 =>
    -- What stands behind the last dot is empty.
    have hnone : isSourceName ((stem ++ ['.']) ++ '.' :: []) = false :=
      isSourceName_append (by decide) (by decide) (by decide) _
    rwa [List.append_assoc] at hnone
  all_goals decide

theorem isForeign_extension (format : Format) : IsForeign ('.' :: format.extension) := by
  refine ⟨⟨?_, ?_, ?_, ?_, ?_, ?_⟩, ?_, isSourceName_append_extension format⟩
  all_goals cases format <;> decide

theorem IsForeign.isShellSource {ending : Text} (h : IsForeign ending)
    (hending : ending <:+ p.text) : isShellSource p = false := by
  obtain ⟨inner, piece, hsegments, _, stem, rfl⟩ :=
    exists_splitOn_concat h.plain.noSlash hending
  have hstay : ¬ (stem ++ ending = [] ∨ stem ++ ending = ['.']) := by
    rintro (hnil | hdot)
    · exact h.plain.ne_nil (List.append_eq_nil_iff.mp hnil).2
    · rcases List.append_eq_singleton_iff.mp hdot with ⟨_, hdot⟩ | ⟨_, hnil⟩
      · exact h.ne_dot hdot
      · exact h.plain.ne_nil hnil
  rw [isShellSource_eq, Path.fileName?]
  by_cases hup : stem ++ ending = ['.', '.']
  · rw [Path.getLast?_components hsegments (by rw [Path.component?, if_neg hstay, if_pos hup])]
    rfl
  · rw [Path.getLast?_components hsegments (by rw [Path.component?, if_neg hstay, if_neg hup])]
    exact h.isSourceName stem

/-- A path of a new output ends as no source does. -/
theorem exists_isForeign (h : Filled format root before after) (hfile : after.isFile p = true)
    (habsent : before.isPresent p = false) : ∃ ending, IsForeign ending ∧ ending <:+ p.text := by
  obtain ⟨q, hlocate⟩ := h.exists_of_isFile hfile habsent
  obtain ⟨location, content, hlocate', hnode⟩ := isFile_iff.mp hfile
  obtain rfl := Except.ok.inj (hlocate.symm.trans hlocate')
  obtain ⟨inner, segment, hsegments, hsegment⟩ := exists_last_segment hlocate hnode
  have hsuffix : segment <:+ p.text := by
    have hjoin : Text.join ['/'] (inner ++ [segment]) = p.text := by
      rw [← hsegments]
      exact List.intercalate_splitOn '/'
    exact hjoin ▸ Text.suffix_join_concat inner ['/'] segment
  rcases hsegment with rfl | ⟨_, parent, hplace⟩
  · exact ⟨_, isForeign_dots, hsuffix⟩
  · obtain ⟨_, hname⟩ := List.append_inj' hplace rfl
    obtain rfl : outputFile format q = segment := (List.cons.inj hname).1
    exact ⟨_, isForeign_extension format, (List.suffix_append _ _).trans hsuffix⟩

/-- An argument that leads to a new output finds no source as a pattern. -/
theorem isShellSource_eq_false_of_mem_search (h : Filled format root before after)
    (hfile : after.isFile ⟨argument⟩ = true) (habsent : before.isPresent ⟨argument⟩ = false)
    {pattern : Pattern} (hpattern : Pattern.ofText argument = .ok pattern)
    (hp : p ∈ pattern.search before) : isShellSource p = false := by
  obtain ⟨ending, hforeign, hending⟩ := exists_isForeign h hfile habsent
  exact hforeign.isShellSource (suffix_of_mem_search hforeign.plain hending hpattern hp)

/-! ## The sources of an argument -/

/-- The sources that a directory lists are those that it listed before. -/
theorem mem_entryNames_of_filled (h : Filled format root before after) {name : Text}
    (hlisted : name ∈ after.entryNames p) (hsource : isShellSource (p.join name) = true) :
    name ∈ before.entryNames p := by
  rw [mem_entryNames_iff] at hlisted ⊢
  refine (h.mem_namesUnder hlisted).resolve_right ?_
  rintro ⟨location, q, _, hplace, _⟩
  obtain ⟨_, hname⟩ := List.append_inj' hplace rfl
  obtain rfl : name = outputFile format q := (List.cons.inj hname).1
  rw [isShellSource_eq, Path.fileName?_join (isEntryName_outputFile format q), Option.any_some,
    isSourceName_outputFile] at hsource
  cases hsource

/-- An argument for a directory stands for the same sources. -/
theorem mem_resolved_filled_directory_iff (h : Filled format root before after)
    (hlistable : before.isListable ⟨argument⟩ = true) (hsource : isShellSource p = true) :
    p ∈ resolved after argument ↔ p ∈ resolved before argument := by
  rw [resolved_of_isListable ((h.sources.isListable _).trans hlistable),
    resolved_of_isListable hlistable, List.mem_filter, List.mem_filter, Bool.and_eq_true,
    Bool.and_eq_true, h.isSourceFile_iff hsource]
  refine and_congr_left fun _ => ?_
  rw [List.mem_map, List.mem_map]
  constructor
  · rintro ⟨name, hlisted, rfl⟩
    exact ⟨name, mem_entryNames_of_filled h hlisted hsource, rfl⟩
  · rintro ⟨name, hlisted, rfl⟩
    rw [mem_entryNames_iff] at hlisted
    exact ⟨name, mem_entryNames_iff.mpr (h.namesUnder_subset hlisted), rfl⟩

/-- A pattern stands for the same sources, although its text may name an output by now. -/
theorem mem_resolved_filled_pattern_iff (h : Filled format root before after)
    (hroot : IsLocation root) (habsent : before.isPresent ⟨argument⟩ = false) {pattern : Pattern}
    (hpattern : Pattern.ofText argument = .ok pattern) (hsource : isShellSource p = true) :
    p ∈ resolved after argument ↔ p ∈ resolved before argument := by
  obtain ⟨hbefore, hdirectory⟩ := Bool.or_eq_false_iff.mp habsent
  rw [resolved_of_pattern habsent hpattern, List.mem_filter]
  cases hafter : after.isFile ⟨argument⟩ with
  | true =>
    -- A new output is no source, and what its path finds as a pattern is none either.
    rw [resolved_of_isFile hafter, List.mem_singleton]
    refine iff_of_false ?_ fun hfound => ?_
    · rintro rfl
      rw [h.isSourceFile_iff hsource, hbefore] at hafter
      cases hafter
    · rw [isShellSource_eq_false_of_mem_search h hafter habsent hpattern hfound.1] at hsource
      cases hsource
  | false =>
    have habsent' : after.isPresent ⟨argument⟩ = false :=
      Bool.or_eq_false_iff.mpr ⟨hafter, (h.sources.isDirectory _).trans hdirectory⟩
    rw [resolved_of_pattern habsent' hpattern, List.mem_filter, ← h.isSourceFile_iff hsource]
    exact and_congr_left fun hfile => mem_search_filled_iff h hroot hfile hsource

/-- **Outputs change nothing about the sources that a valid argument stands for.** -/
theorem mem_resolved_filled_iff (h : Filled format root before after) (hroot : IsLocation root)
    (hvalid : IsValidArgument before argument) (hsource : isShellSource p = true) :
    p ∈ resolved after argument ↔ p ∈ resolved before argument := by
  rcases hvalid with hfile | hlistable | ⟨habsent, pattern, hpattern⟩
  · rw [resolved_of_isFile hfile, resolved_of_isFile (h.isFile hfile)]
  · exact mem_resolved_filled_directory_iff h hlistable hsource
  · exact mem_resolved_filled_pattern_iff h hroot habsent hpattern hsource

/-! ## The documented sources of a run -/

variable {marker : Char} {arguments : List Text} {sources sources' : List Path}

/-- If one tree resolves arguments to all sources that another does, and these are documented in it
too, then it has all documented sources of the other, up to spelling. -/
theorem mem_documented (hexpand : (expand before arguments).2 = .ok sources)
    (hexpand' : (expand after arguments).2 = .ok sources')
    (hresolved : ∀ argument ∈ arguments, ∀ p, isShellSource p = true →
      p ∈ resolved before argument → p ∈ resolved after argument)
    (hdocumented : ∀ p, before.isFile p = true → after.isFile p = true →
      isDocumented before marker p = true → isDocumented after marker p = true)
    {c : List Path.Component}
    (hc : c ∈ (sources.filter (isDocumented before marker)).map Path.components) :
    c ∈ (sources'.filter (isDocumented after marker)).map Path.components := by
  obtain ⟨hvalid, hsources⟩ := expand_eq_ok_iff.mp hexpand
  obtain ⟨hvalid', hsources'⟩ := expand_eq_ok_iff.mp hexpand'
  obtain ⟨p, hp, rfl⟩ := List.mem_map.mp hc
  obtain ⟨hmem, hp⟩ := List.mem_filter.mp hp
  -- Of all spellings of the source, an argument stands for this one.
  have hfound := List.mem_map_of_mem (f := Path.components) hmem
  rw [hsources, Path.mem_components_insertAll, List.map_nil, or_iff_left List.not_mem_nil] at hfound
  obtain ⟨q, hq, hcomponents⟩ := List.mem_map.mp hfound
  obtain ⟨argument, hargument, hq⟩ := List.mem_flatMap.mp hq
  have hfile := isFile_of_mem_resolved (hvalid argument hargument) hq
  have hdocumented_q : isDocumented before marker q = true :=
    (isDocumented_eq_of_components_eq hcomponents hfile (isFile_of_expand hexpand hmem)).trans hp
  have hq' := hresolved argument hargument q (isShellSource_of_isDocumented hdocumented_q) hq
  have hfile' := isFile_of_mem_resolved (hvalid' argument hargument) hq'
  have hfound' : q.components ∈ sources'.map Path.components := by
    rw [hsources', Path.mem_components_insertAll]
    exact .inl (List.mem_map_of_mem (List.mem_flatMap.mpr ⟨argument, hargument, hq'⟩))
  obtain ⟨r, hr, hcomponents'⟩ := List.mem_map.mp hfound'
  refine List.mem_map.mpr ⟨r, List.mem_filter.mpr ⟨hr, ?_⟩, hcomponents'.trans hcomponents⟩
  rw [isDocumented_eq_of_components_eq hcomponents' (isFile_of_expand hexpand' hr) hfile']
  exact hdocumented q hfile hfile' hdocumented_q

theorem isValidArgument_filled (h : Filled format root before after)
    (hvalid : IsValidArgument before argument) : IsValidArgument after argument := by
  rcases hvalid with hfile | hlistable | ⟨habsent, hpattern⟩
  · exact .inl (h.isFile hfile)
  · exact .inr (.inl ((h.sources.isListable _).trans hlistable))
  · by_cases hafter : after.isFile ⟨argument⟩ = true
    · exact .inl hafter
    · refine .inr (.inr ⟨?_, hpattern⟩)
      rw [FileTree.isPresent, Bool.or_eq_false_iff, h.sources.isDirectory]
      exact ⟨Bool.eq_false_iff.mpr hafter, (Bool.or_eq_false_iff.mp habsent).2⟩

/-- **With the outputs of a run in place the same sources are documented**, up to spelling. -/
theorem exists_expand_filled (h : Filled format root before after) (hroot : IsLocation root)
    (hexpand : (expand before arguments).2 = .ok sources) (marker : Char) :
    ∃ sources', (expand after arguments).2 = .ok sources' ∧
      (sources'.filter (isDocumented after marker)).map Path.components =
        (sources.filter (isDocumented before marker)).map Path.components := by
  obtain ⟨hvalid, _⟩ := expand_eq_ok_iff.mp hexpand
  have hexpand' := expand_eq_ok_iff.mpr
    ⟨fun argument hargument => isValidArgument_filled h (hvalid argument hargument), rfl⟩
  refine ⟨_, hexpand', Path.map_components_eq
    (Path.ascending_filter (ascending_of_expand hexpand') _)
    (Path.ascending_filter (ascending_of_expand hexpand) _) fun c => ⟨?_, ?_⟩⟩
  · refine mem_documented hexpand' hexpand (fun argument hargument p hsource => ?_) ?_
    · exact (mem_resolved_filled_iff h hroot (hvalid argument hargument) hsource).mp
    · exact fun p _ hfile hp => (h.sources.isDocumented hfile).symm.trans hp
  · refine mem_documented hexpand hexpand' (fun argument hargument p hsource => ?_) ?_
    · exact (mem_resolved_filled_iff h hroot (hvalid argument hargument) hsource).mpr
    · exact fun p hfile _ hp => (h.sources.isDocumented hfile).trans hp

/-! ## The outputs of a run -/

variable {made : FileTree} {directory : Path}

/-- The outputs for sources, each with the place where it goes. -/
def outputNodes (made : FileTree) (marker : Char) (format : Format) (root : Location)
    (sources : List Path) : List (Location × Node) :=
  sources.map fun p => (place root format p, .file (outputBytes made marker format p))

theorem foldl_stored_eq (tree : FileTree) (sources : List Path) :
    sources.foldl (stored made marker format root) tree =
      tree.setAll (outputNodes made marker format root sources) := by
  rw [setAll, outputNodes, List.foldl_map]
  rfl

/-- To write outputs is to add outputs. -/
theorem filled_stored
    (hsame : SameSources made (sources.foldl (stored made marker format root) made)) :
    Filled format root made (sources.foldl (stored made marker format root) made) := by
  refine ⟨hsame, fun location hlocation => ?_, fun location hlocation hnew => ?_⟩
  · rw [foldl_stored_eq]
    exact mem_locations_setAll.mpr (.inr hlocation)
  · rw [foldl_stored_eq, mem_locations_setAll, outputNodes, List.map_map, List.mem_map] at hlocation
    obtain ⟨p, _, rfl⟩ := hlocation.resolve_right hnew
    exact ⟨p, rfl⟩

/-- Spellings of the same sources have the same outputs at the same places. -/
theorem outputNodes_filled (h : Filled format root made after)
    (hcomponents : (sources'.filter (isDocumented after marker)).map Path.components =
      (sources.filter (isDocumented made marker)).map Path.components)
    (hfiles : ∀ p ∈ sources, made.isFile p = true)
    (hfiles' : ∀ p ∈ sources', after.isFile p = true) :
    outputNodes after marker format root (sources'.filter (isDocumented after marker)) =
      outputNodes made marker format root (sources.filter (isDocumented made marker)) := by
  refine Path.map_eq_map_of_components hcomponents fun q hq p hp heq => ?_
  obtain ⟨hq, _⟩ := List.mem_filter.mp hq
  obtain ⟨hp, hdocumented⟩ := List.mem_filter.mp hp
  have hplace : place root format q = place root format p :=
    place_eq_iff.mpr (outputName_eq_of_components_eq heq)
  have hfunctions : functionsIn after marker q = functionsIn made marker p :=
    (functionsIn_eq_of_components_eq heq (hfiles' q hq) (h.isFile (hfiles p hp))).trans
      (h.sources.functionsIn (hfiles p hp) (isShellSource_of_isDocumented hdocumented))
  rw [hplace, outputBytes, outputBytes, hfunctions]

/-! ## Two runs -/

variable {options : Options} {tree : FileTree}

/-- The limits of an output depend on the components of its source. -/
theorem WithinLimits.of_components_eq {q : Path} (h : WithinLimits directory format p)
    (hcomponents : q.components = p.components) : WithinLimits directory format q := by
  have hname := outputName_eq_of_components_eq hcomponents
  refine ⟨hname ▸ h.name, ?_⟩
  rw [outputPath, hname]
  exact h.path

/-- What did not stand in the way of the outputs for sources does not for other spellings. -/
theorem isWritable_written (h : Written made after)
    (hcomponents : (sources'.filter (isDocumented after marker)).map Path.components =
      (sources.filter (isDocumented made marker)).map Path.components)
    (hwritable : ∀ p ∈ sources, isDocumented made marker p = true →
      IsWritable made directory format p) :
    ∀ q ∈ sources', isDocumented after marker q = true → IsWritable after directory format q := by
  intro q hq hdocumented
  have hmem := List.mem_map_of_mem (f := Path.components) (List.mem_filter.mpr ⟨hq, hdocumented⟩)
  rw [hcomponents] at hmem
  obtain ⟨p, hp, heq⟩ := List.mem_map.mp hmem
  obtain ⟨hp, hdocumented⟩ := List.mem_filter.mp hp
  obtain ⟨hlimits, hfree, hallowed⟩ := hwritable p hp hdocumented
  have hname := outputName_eq_of_components_eq heq
  refine ⟨hlimits.of_components_eq heq.symm, ?_, fun root hroot => ?_⟩
  · rw [h.isDirectory, outputPath, ← hname]
    exact hfree
  · rw [allows_congr h.denials, h.mayPut, place_eq_iff.mpr hname.symm]
    exact hallowed root (h.locate_iff.mp hroot)

/-- Sources that have been written are written again, to the same tree. -/
theorem exists_writeAll_again (hdirectory : LeadsToDirectory made directory root)
    (hroot : IsLocation root) (hexpand : (expand made arguments).2 = .ok sources)
    {events : List Event} {output : Text}
    (hwrite : writeAll marker format directory [] made sources = ⟨events, .ok output, after⟩) :
    after.isDirectory directory = true ∧ ∃ sources' events',
      (expand after arguments).2 = .ok sources' ∧
        writeAll marker format directory [] after sources' = ⟨events', .ok [], after⟩ := by
  have hfiles : ∀ p ∈ sources, made.isFile p = true := fun p => isFile_of_expand hexpand
  have hwritable := isWritable_of_writeAll hdirectory hfiles (.refl made)
    (congrArg Report.result hwrite)
  obtain ⟨_, hfirst, hwritten, _⟩ := exists_writeAll_eq hdirectory hfiles hwritable
  have hafter : after = (sources.filter (isDocumented made marker)).foldl
      (stored made marker format root) made := congrArg Report.tree (hwrite.symm.trans hfirst)
  have hfilled := filled_stored hwritten.toSameSources
  rw [← hafter] at hfilled hwritten
  obtain ⟨sources', hexpand', hcomponents⟩ := exists_expand_filled hfilled hroot hexpand marker
  have hfiles' : ∀ p ∈ sources', after.isFile p = true := fun p => isFile_of_expand hexpand'
  have hdirectory' : LeadsToDirectory after directory root :=
    ⟨hdirectory.ne_nil, hfilled.sources.keepsDirectories.locate hdirectory.locate,
      (hfilled.sources.directory root).mpr hdirectory.node?⟩
  obtain ⟨events', hsecond, _, _⟩ := exists_writeAll_eq hdirectory' hfiles'
    (isWritable_written hwritten hcomponents hwritable)
  refine ⟨isDirectory_iff.mpr ⟨root, hdirectory'.locate, hdirectory'.node?⟩, sources', events',
    hexpand', ?_⟩
  have hnodes := outputNodes_filled hfilled hcomponents hfiles hfiles'
  rw [foldl_stored_eq] at hafter
  rw [hsecond, foldl_stored_eq, hnodes, hafter, setAll_setAll]

/-- **A run in file mode that has succeeded can be repeated and changes nothing**, wherever its
arguments lead: to the output directory, to what contains it, or to the outputs themselves. The log
setting may be another one by then, if the run gets past it too. -/
theorem run_again (h : AsksForFiles arguments options) (hnames : IsLocation tree.workingDirectory)
    {setting? : Option Text} {input : ByteArray}
    (hexit : (run arguments setting? input tree).exitCode = 0) {setting'? : Option Text}
    (hsettings : Starts options setting? → Starts options setting'?) (input' : ByteArray) :
    let outcome := run arguments setting? input tree
    let again := run arguments setting'? input' outcome.tree
    again.exitCode = 0 ∧ again.tree = outcome.tree := by
  intro outcome again
  have hstarts := starts_of_exitCode h.parsed hexit
  obtain ⟨filter, hfilter⟩ := hstarts
  obtain ⟨filter', hfilter'⟩ := hsettings ⟨filter, hfilter⟩
  obtain ⟨report, hreport⟩ : ∃ report, runFiles options tree = report := ⟨_, rfl⟩
  have houtcome : outcome = report.outcome filter := by
    rw [← hreport, ← h.run hfilter]
  have hagain : again = (runFiles options outcome.tree).outcome filter' := h.run hfilter' _ _
  rw [h.run hfilter, hreport] at hexit
  cases runFiles_eq_iff.mp hreport with
  | outputRequired => cases hexit
  | unknownFormat => cases hexit
  | notCreated => cases hexit
  | notExpanded => cases hexit
  | @expanded directory format made events sources houtput hcreated hexpanded =>
    obtain ⟨root, hdirectory⟩ :=
      exists_leadsToDirectory (output_ne_nil_of_parse h.parsed houtput.directory) hcreated
    have hgrown := grown_createDirectories tree directory
    rw [hcreated] at hgrown
    have hroot : IsLocation root :=
      isLocation_of_locate (by rwa [hgrown.workingDirectory]) hdirectory.locate
    cases hwrite : writeAll options.marker format directory [] made sources with
    | mk written result after =>
      rw [hwrite] at hexit houtcome
      cases result with
      | error failure => cases hexit
      | ok output =>
        obtain ⟨hthere, sources', events', hexpand', hwrite'⟩ := exists_writeAll_again hdirectory
          hroot (congrArg Prod.snd hexpanded) hwrite
        have hafter : outcome.tree = after := by rw [houtcome]; rfl
        rw [hagain, hafter, runFiles_eq_iff.mpr (.expanded houtput
          (createDirectories_of_isDirectory hthere) (Prod.ext rfl hexpand')), hwrite']
        exact ⟨rfl, rfl⟩

/-- Arguments with a pattern for all depths, the directory that contains everything, the output
directory, and an output to come. -/
def aroundArguments : List Text :=
  ["**/*.sh".toList, ".".toList, "out".toList, "-o".toList, "out".toList, "out/x.json".toList]

def aroundOptions : Options :=
  { sharedNameOptions with
    files := ["**/*.sh".toList, ".".toList, "out".toList, "out/x.json".toList] }

theorem expand_around :
    (expand sharedNameMade aroundOptions.files).2 = .ok [⟨"a/x.sh".toList⟩] := by
  cbv

/-- The second run finds the output of the first, and leaves all as it is. -/
theorem run_again_around :
    let outcome := run aroundArguments none .empty sharedNameTree
    let again := run aroundArguments none .empty outcome.tree
    again.exitCode = 0 ∧ again.tree = outcome.tree := by
  have hasks : AsksForFiles aroundArguments aroundOptions := ⟨by rfl, rfl, List.cons_ne_nil _ _⟩
  have houtput : WritesTo aroundOptions ⟨"out".toList⟩ .json := ⟨rfl, by rfl⟩
  have hcreated : sharedNameTree.createDirectories ⟨"out".toList⟩ = ⟨sharedNameMade, none⟩ := by rfl
  have hlimits : WithinLimits ⟨"out".toList⟩ .json ⟨"a/x.sh".toList⟩ := ⟨by decide, by decide⟩
  have hstarts : Starts aroundOptions none := ⟨_, rfl⟩
  have hexit := exitCode_of_isWritable hasks houtput hcreated expand_around
    (List.forall_mem_singleton.mpr ⟨hlimits, by rfl, mayBePut_of_nothing_denied rfl _ _ _⟩)
    hstarts .empty
  have hnames : IsLocation sharedNameTree.workingDirectory := List.forall_mem_nil _
  exact run_again hasks hnames hexit id .empty

end ShellDoc.CommandLine
