import ShellDoc.Proofs.CommandLine.Course
import ShellDoc.Proofs.CommandLine.Files
import ShellDoc.Proofs.Source.Spelling

/-!
# The arrangement of arguments

In which order the files of a run are given, and how often each, does not matter (`run_arrangement`).
The sources are the same in the same order, although one of them may be spelled in another way. So
the same outputs are written in the same order, and if one cannot be written, both runs end there.
-/

namespace ShellDoc.CommandLine

open Source FileTree

variable {tree : FileTree} {marker : Char} {format : Format} {directory : Path}
  {arguments arguments' : List Text}

/-! ## What is found -/

/-- The sources that arguments stand for, by their components, if all arguments are valid. -/
def sourceComponents? (tree : FileTree) (arguments : List Text) :
    Option (List (List Path.Component)) :=
  (expand tree arguments).2.toOption.map (List.map Path.components)

theorem sourceComponents?_eq_some_iff {found : List (List Path.Component)} :
    sourceComponents? tree arguments = some found ↔
      ∃ sources, (expand tree arguments).2 = .ok sources ∧
        sources.map Path.components = found := by
  rw [sourceComponents?, Option.map_eq_some_iff]
  refine exists_congr fun sources => and_congr_left fun _ => ?_
  cases (expand tree arguments).2 with
  | error failure => exact iff_of_false nofun nofun
  | ok paths => exact ⟨fun h => congrArg Except.ok (Option.some.inj h), fun h => by rw [h]; rfl⟩

theorem ascending_sourceComponents? {found : List (List Path.Component)}
    (h : sourceComponents? tree arguments = some found) :
    found.Pairwise Path.componentsBefore := by
  obtain ⟨sources, hsources, rfl⟩ := sourceComponents?_eq_some_iff.mp h
  exact ascending_of_expand hsources

/-- What is found depends on which arguments there are. -/
theorem sourceComponents?_eq (h : ∀ argument, argument ∈ arguments ↔ argument ∈ arguments')
    (tree : FileTree) : sourceComponents? tree arguments = sourceComponents? tree arguments' := by
  have hforward : ∀ {arguments arguments' : List Text} {found : List (List Path.Component)},
      (∀ argument, argument ∈ arguments ↔ argument ∈ arguments') →
      sourceComponents? tree arguments = some found →
      sourceComponents? tree arguments' = some found := by
    intro arguments arguments' found h hfound
    obtain ⟨sources, hsources, rfl⟩ := sourceComponents?_eq_some_iff.mp hfound
    obtain ⟨hvalid, hinserted⟩ := expand_eq_ok_iff.mp hsources
    have hsources' : (expand tree arguments').2 =
        .ok (Path.insertAll (arguments'.flatMap (resolved tree)) []) :=
      expand_eq_ok_iff.mpr ⟨fun argument hargument => hvalid argument ((h argument).mpr hargument),
        rfl⟩
    have hmem : ∀ p, p ∈ arguments.flatMap (resolved tree) ↔
        p ∈ arguments'.flatMap (resolved tree) := by
      simp only [List.mem_flatMap, h, implies_true]
    refine sourceComponents?_eq_some_iff.mpr ⟨_, hsources', ?_⟩
    refine Path.map_components_eq (ascending_of_expand hsources') (ascending_of_expand hsources)
      fun c => ?_
    rw [hinserted, Path.mem_components_insertAll, Path.mem_components_insertAll]
    simp only [List.mem_map, hmem]
  refine Option.ext fun found => ⟨hforward h, hforward fun argument => (h argument).symm⟩

/-! ## What is written -/

/-- Two spellings of the same sources lead to the same outputs. -/
theorem sameEnd_writeAll {sources sources' : List Path}
    (hcomponents : sources.map Path.components = sources'.map Path.components)
    (hfiles : ∀ p ∈ sources, tree.isFile p = true) (hfiles' : ∀ p ∈ sources', tree.isFile p = true)
    (written written' : List (Path × Path)) :
    SameEnd (writeAll marker format directory written tree sources)
      (writeAll marker format directory written' tree sources') := by
  induction sources generalizing sources' tree written written' with
  | nil =>
    obtain rfl : sources' = [] := List.map_eq_nil_iff.mp hcomponents.symm
    exact ⟨rfl, rfl⟩
  | cons p rest ih =>
    obtain ⟨q, rest', rfl, hq, hrest⟩ := List.map_eq_cons_iff.mp hcomponents.symm
    obtain ⟨hp, hfiles⟩ := List.forall_mem_cons.mp hfiles
    obtain ⟨hq', hfiles'⟩ := List.forall_mem_cons.mp hfiles'
    have hsame : isDocumented tree marker q = isDocumented tree marker p :=
      isDocumented_eq_of_components_eq hq hq' hp
    cases hdocumented : isDocumented tree marker p with
    | false =>
      obtain ⟨e, _, hstep⟩ :=
        writeAll_cons_of_not_isDocumented hdocumented format directory written rest
      obtain ⟨e', _, hstep'⟩ := writeAll_cons_of_not_isDocumented (hsame.trans hdocumented) format
        directory written' rest'
      obtain ⟨hresult, htree⟩ := ih hrest.symm hfiles hfiles' written written'
      rw [hstep, hstep']
      exact ⟨hresult, htree⟩
    | true =>
      have hpath : outputPath directory format q = outputPath directory format p := by
        rw [outputPath, outputPath, outputName_eq_of_components_eq hq]
      have hbytes : outputBytes tree marker format q = outputBytes tree marker format p := by
        rw [outputBytes, outputBytes, functionsIn_eq_of_components_eq hq hq' hp]
      cases hwrite : tree.write (outputPath directory format p)
          (outputBytes tree marker format p) with
      | error cause =>
        rw [writeAll_cons_of_write_eq_error hdocumented hwrite,
          writeAll_cons_of_write_eq_error (hsame.trans hdocumented)
            (by rw [hpath, hbytes, hwrite])]
        exact ⟨rfl, rfl⟩
      | ok after =>
        -- The sources that remain are still there, whatever has been written over.
        have hkept : ∀ r ∈ rest, after.isFile r = true := fun r hr =>
          isFile_write hwrite (hfiles r hr)
        have hkept' : ∀ r ∈ rest', after.isFile r = true := fun r hr =>
          isFile_write hwrite (hfiles' r hr)
        rw [writeAll_cons_of_write_eq_ok hdocumented hwrite,
          writeAll_cons_of_write_eq_ok (hsame.trans hdocumented) (by rw [hpath, hbytes, hwrite])]
        obtain ⟨hresult, htree⟩ := ih hrest.symm hkept hkept' _ _
        exact ⟨hresult, htree⟩

/-! ## Whole runs -/

variable {options options' : Options}

/-- With the output directory there, two runs on the same files come to the same end. -/
theorem sameEnd_of_same_files {made : FileTree} (hmarker : options'.marker = options.marker)
    (hfiles : ∀ file, file ∈ options.files ↔ file ∈ options'.files) :
    SameEnd (runMade options directory format made) (runMade options' directory format made) := by
  have hfound := sourceComponents?_eq hfiles made
  cases hexpand : (expand made options.files).2 with
  | ok sources =>
    have hsome := sourceComponents?_eq_some_iff.mpr ⟨sources, hexpand, rfl⟩
    rw [hfound] at hsome
    obtain ⟨sources', hexpand', hcomponents⟩ := sourceComponents?_eq_some_iff.mp hsome
    refine sameEnd_runMade hmarker hexpand hexpand' (sameEnd_writeAll hcomponents.symm ?_ ?_ [] [])
    · exact fun p => isFile_of_expand hexpand
    · exact fun p => isFile_of_expand hexpand'
  | error failure =>
    cases hexpand' : (expand made options'.files).2 with
    | ok sources' =>
      have hsome := sourceComponents?_eq_some_iff.mpr ⟨sources', hexpand', rfl⟩
      rw [← hfound, sourceComponents?, hexpand] at hsome
      cases hsome
    | error failure' =>
      have hpair : expand made options.files = ((expand made options.files).1, .error failure) :=
        Prod.ext rfl hexpand
      have hpair' : expand made options'.files =
          ((expand made options'.files).1, .error failure') := Prod.ext rfl hexpand'
      rw [runMade, runMade, hpair, hpair']
      exact ⟨rfl, rfl⟩

/-- **The arrangement of files does not matter.** What the files of two runs stand for is the same in
ascending order, up to spelling, in whatever tree. Two runs with the same options but for the
arrangement of their files end with the same exit code and the same output, and leave the same
tree. Their log settings are the same, or at least such that both get past them or neither does. -/
theorem run_arrangement (h : AsksForFiles arguments options) (h' : AsksForFiles arguments' options')
    (hoptions : { options' with files := options.files } = options)
    (hfiles : ∀ file, file ∈ options.files ↔ file ∈ options'.files)
    {setting? setting'? : Option Text}
    (hsettings : Starts options setting? ↔ Starts options setting'?) (input input' : ByteArray)
    (tree : FileTree) :
    (∀ made, sourceComponents? made options.files = sourceComponents? made options'.files ∧
      ∀ found, sourceComponents? made options.files = some found →
        found.Pairwise Path.componentsBefore) ∧
    let outcome := run arguments setting? input tree
    let outcome' := run arguments' setting'? input' tree
    outcome.exitCode = outcome'.exitCode ∧ outcome.output = outcome'.output ∧
      outcome.tree = outcome'.tree := by
  refine ⟨fun made => ⟨sourceComponents?_eq hfiles made, fun _ => ascending_sourceComponents?⟩, ?_⟩
  have hmarker : options'.marker = options.marker := by rw [← hoptions]
  exact run_eq_of_sameEnd h h' hoptions hsettings fun _ _ _ _ _ =>
    sameEnd_of_same_files hmarker hfiles

/-- Arguments that spell one script in two ways. -/
def spelledTwiceArguments : List Text :=
  ["a//x.sh".toList, "b/x.zsh".toList, "-o".toList, "out".toList, "a/x.sh".toList]

def spelledTwiceOptions : Options :=
  { sharedNameOptions with files := ["a//x.sh".toList, "b/x.zsh".toList, "a/x.sh".toList] }

/-- The same files in another order, one of them twice. -/
def rearrangedArguments : List Text :=
  ["-o".toList, "out".toList, "b/x.zsh".toList, "a/x.sh".toList, "b/x.zsh".toList,
    "a//x.sh".toList]

def rearrangedOptions : Options :=
  { sharedNameOptions with
    files := ["b/x.zsh".toList, "a/x.sh".toList, "b/x.zsh".toList, "a//x.sh".toList] }

/-- Two scripts that share an output, one of them spelled in two ways. -/
theorem run_arrangement_spelledTwice :
    let outcome := run spelledTwiceArguments none .empty sharedNameTree
    let outcome' := run rearrangedArguments none .empty sharedNameTree
    outcome.exitCode = outcome'.exitCode ∧ outcome.output = outcome'.output ∧
      outcome.tree = outcome'.tree := by
  have hfirst : AsksForFiles spelledTwiceArguments spelledTwiceOptions :=
    ⟨by rfl, rfl, List.cons_ne_nil _ _⟩
  have hsecond : AsksForFiles rearrangedArguments rearrangedOptions :=
    ⟨by rfl, rfl, List.cons_ne_nil _ _⟩
  have hmem : ∀ a b c file : Text, file ∈ [a, b, c] ↔ file ∈ [b, c, b, a] := by
    intro a b c file
    simp only [List.mem_cons, List.not_mem_nil]
    tauto
  have hfiles : ∀ file, file ∈ spelledTwiceOptions.files ↔ file ∈ rearrangedOptions.files :=
    hmem _ _ _
  exact (run_arrangement hfirst hsecond rfl hfiles .rfl .empty .empty sharedNameTree).2

end ShellDoc.CommandLine
