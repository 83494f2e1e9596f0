import ShellDoc.Proofs.CommandLine.Files
import ShellDoc.Proofs.Source.Alike

/-!
# Files that are not read

A run reads sources and nothing else. On two trees that differ in the bytes of other files it
reports the same, ends in the same way and sets the same in both (`run_unread`), whether the other
files are named, listed in a directory or found by a pattern.

What arguments stand for depends on names and kinds alone (`AlikeInSources.expand`). From then on
the two runs go side by side: the sources read the same, and what is written leaves the trees alike,
so that it does not matter if something is read that was written.
-/

namespace ShellDoc

open FileTree Glob CommandLine

namespace Source

variable {tree tree' : FileTree}

/-! ## What is found -/

theorem AlikeInSources.literalStep (h : AlikeInSources tree tree') (p : Path) (name : Text) :
    literalStep tree' p name = literalStep tree p name := by
  rw [Glob.literalStep, Glob.literalStep, h.sources.isDirectory, h.isPresent]

theorem AlikeInSources.wildStep (h : AlikeInSources tree tree') (p : Path) (tokens : List Token) :
    wildStep tree' p tokens = wildStep tree p tokens := by
  rw [Glob.wildStep, Glob.wildStep, h.sources.isListable, h.entryNames]

theorem AlikeInSources.descents (h : AlikeInSources tree tree') (p : Path) :
    descents tree' p = descents tree p := by
  rw [Glob.descents, Glob.descents, h.namesUnder]

theorem AlikeInSources.searchFrom (h : AlikeInSources tree tree') :
    ∀ (parts : List Part) (p : Path), searchFrom tree' parts p = searchFrom tree parts p
  | [], _ => rfl
  | .literal name :: parts, p => by
    rw [Glob.searchFrom, Glob.searchFrom, h.literalStep, funext (h.searchFrom parts)]
  | .wild tokens :: parts, p => by
    rw [Glob.searchFrom, Glob.searchFrom, h.wildStep, funext (h.searchFrom parts)]
  | [.anyDepth], p => by
    rw [Glob.searchFrom, Glob.searchFrom, h.descents, funext h.sources.isDirectory]
  | .anyDepth :: part :: parts, p => by
    rw [Glob.searchFrom, Glob.searchFrom, h.descents]
    simp only [h.searchFrom parts]

theorem AlikeInSources.search (h : AlikeInSources tree tree') (pattern : Pattern) :
    pattern.search tree' = pattern.search tree := by
  rw [Pattern.search, Pattern.search, h.searchFrom, funext h.sources.isDirectory]

theorem AlikeInSources.sourcesIn (h : AlikeInSources tree tree') {p : Path}
    (hdirectory : tree.isDirectory p = true) : sourcesIn tree' p = sourcesIn tree p := by
  cases hlistable : tree.isListable p with
  | true =>
    rw [sourcesIn_of_isListable hlistable,
      sourcesIn_of_isListable ((h.sources.isListable p).trans hlistable), h.entryNames]
    simp only [h.isFile]
  | false =>
    rw [sourcesIn_of_not_isListable hdirectory hlistable, sourcesIn_of_not_isListable
      ((h.sources.isDirectory p).trans hdirectory) ((h.sources.isListable p).trans hlistable)]

theorem AlikeInSources.resolve (h : AlikeInSources tree tree') (argument : Text) :
    resolve tree' argument = resolve tree argument := by
  rw [CommandLine.resolve, CommandLine.resolve, h.isFile, h.sources.isDirectory]
  split
  next => rfl
  next =>
    split
    next hdirectory => rw [h.sourcesIn hdirectory]
    next => simp only [h.search, funext h.isFile]

/-- What arguments stand for, and what is reported of it, is the same in both trees. -/
theorem AlikeInSources.expand (h : AlikeInSources tree tree') (arguments : List Text) :
    expand tree' arguments = expand tree arguments := by
  rw [CommandLine.expand, CommandLine.expand]
  generalize [] = found
  induction arguments generalizing found with
  | nil => rfl
  | cons argument rest ih => simp only [expandInto, h.resolve, ih]

end Source

namespace CommandLine

open Source

variable {tree tree' : FileTree}

/-! ## What is written -/

/-- Whether runs on two trees report the same, end in the same way and set the same nodes. -/
def SameCourse (tree tree' : FileTree) (report report' : Report) : Prop :=
  ∃ events result nodes,
    report = ⟨events, result, tree.setAll nodes⟩ ∧ report' = ⟨events, result, tree'.setAll nodes⟩

/-- Two runs that set nothing and end in the same way. -/
theorem sameCourse_unchanged (tree tree' : FileTree) (events : List Event)
    (result : Except Failure Text) :
    SameCourse tree tree' ⟨events, result, tree⟩ ⟨events, result, tree'⟩ :=
  ⟨events, result, [], rfl, rfl⟩

/-- The same may be set before. -/
theorem SameCourse.of_setAll {nodes : List (Location × Node)} {report report' : Report}
    (h : SameCourse (tree.setAll nodes) (tree'.setAll nodes) report report') :
    SameCourse tree tree' report report' := by
  obtain ⟨events, result, more, rfl, rfl⟩ := h
  refine ⟨events, result, nodes ++ more, ?_, ?_⟩
  · rw [setAll_append]
  · rw [setAll_append]

/-- The same may be reported before. -/
theorem SameCourse.behind {report report' : Report} (h : SameCourse tree tree' report report')
    (before : List Event) :
    SameCourse tree tree' { report with events := before ++ report.events }
      { report' with events := before ++ report'.events } := by
  obtain ⟨events, result, nodes, rfl, rfl⟩ := h
  exact ⟨before ++ events, result, nodes, rfl, rfl⟩

/-- The same sources are written side by side. -/
theorem sameCourse_writeAll (h : AlikeInSources tree tree') (marker : Char) (format : Format)
    (directory : Path) (written : List (Path × Path)) (sources : List Path) :
    SameCourse tree tree' (writeAll marker format directory written tree sources)
      (writeAll marker format directory written tree' sources) := by
  induction sources generalizing tree tree' written with
  | nil => exact sameCourse_unchanged tree tree' [] (.ok [])
  | cons source rest ih =>
    rw [writeAll, writeAll, h.readFunctions]
    cases readFunctions tree marker source with
    | error reason => exact (ih h written).behind [.skipped source reason]
    | ok functions =>
      cases functions with
      | nil => exact (ih h written).behind [.parsed source 0]
      | cons f fs =>
        let output := outputPath directory format source
        let before := .parsed source (f :: fs).length :: noteOverwrite written source output
        obtain ⟨nodes, hwrite, hwrite'⟩ :=
          h.exists_write_eq output (encodeUtf8 (format.print (f :: fs)))
        dsimp only
        rw [hwrite, hwrite']
        cases nodes with
        | error cause => exact sameCourse_unchanged tree tree' _ _
        | ok nodes =>
          have hrest := ih (h.setAll nodes) ((output, source) :: written)
          have hmore := hrest.of_setAll.behind (before ++ [.wrote output])
          rw [List.append_assoc, List.append_assoc] at hmore
          exact hmore

theorem sameCourse_runMade (h : AlikeInSources tree tree') (options : Options) (directory : Path)
    (format : Format) :
    SameCourse tree tree' (runMade options directory format tree)
      (runMade options directory format tree') := by
  rw [runMade, runMade, h.expand]
  split
  next events failure _ => exact sameCourse_unchanged tree tree' events _
  next events sources _ =>
    exact (sameCourse_writeAll h options.marker format directory [] sources).behind events

theorem sameCourse_runFiles (h : AlikeInSources tree tree') (options : Options) :
    SameCourse tree tree' (runFiles options tree) (runFiles options tree') := by
  rw [runFiles, runFiles]
  cases options.output? with
  | none => exact sameCourse_unchanged tree tree' [] _
  | some directory =>
    dsimp only
    cases formatOf options with
    | error failure => exact sameCourse_unchanged tree tree' [] _
    | ok format =>
      obtain ⟨nodes, error?, hmade, hmade'⟩ := h.exists_createDirectories_eq directory
      dsimp only
      rw [hmade, hmade']
      cases error? with
      | some cause => exact ⟨[], _, nodes, rfl, rfl⟩
      | none => exact (sameCourse_runMade (h.setAll nodes) options directory format).of_setAll

theorem sameCourse_runWith (h : AlikeInSources tree tree') (options : Options)
    (input : ByteArray) :
    SameCourse tree tree' (runWith options input tree) (runWith options input tree') := by
  rw [runWith, runWith]
  split
  next => exact sameCourse_unchanged tree tree' [] _
  next =>
    split
    next =>
      rw [runInput, runInput]
      split
      next => exact sameCourse_unchanged tree tree' [] _
      next => exact sameCourse_unchanged tree tree' _ _
    next => exact sameCourse_runFiles h options

/-! ## Whole runs -/

/-- **Files that are no sources are not read.** On two trees that differ at most in the bytes of
such files, a run ends with the same exit code, prints and reports the same, and sets the same files
and directories one after another. -/
theorem run_unread (h : AlikeInSources tree tree') (arguments : List Text)
    (setting? : Option Text) (input : ByteArray) :
    let outcome := run arguments setting? input tree
    let outcome' := run arguments setting? input tree'
    outcome'.exitCode = outcome.exitCode ∧ outcome'.output = outcome.output ∧
      outcome'.errors = outcome.errors ∧
      ∃ nodes, outcome.tree = tree.setAll nodes ∧ outcome'.tree = tree'.setAll nodes := by
  dsimp only
  rw [run, run]
  cases parse arguments with
  | error e => exact ⟨rfl, rfl, rfl, [], rfl, rfl⟩
  | ok request =>
    cases request with
    | help => exact ⟨rfl, rfl, rfl, [], rfl, rfl⟩
    | run options =>
      obtain ⟨events, result, nodes, hreport, hreport'⟩ := sameCourse_runWith h options input
      dsimp only
      rw [hreport, hreport']
      cases filterInForce? options setting? with
      | none => exact ⟨rfl, rfl, rfl, [], rfl, rfl⟩
      | some filter =>
        cases result with
        | error failure => exact ⟨rfl, rfl, rfl, nodes, rfl, rfl⟩
        | ok output => exact ⟨rfl, rfl, rfl, nodes, rfl, rfl⟩

/-- A script next to a picture. -/
def pictureTree : FileTree where
  entries := [
    (["a".toList], .directory),
    (["a".toList, "x.png".toList], .file (encodeUtf8 "x".toList)),
    (["a".toList, "x.sh".toList], .file (encodeUtf8 (shortScript 'f')))]
  workingDirectory := []

/-- Arguments that find the picture by its name, in its directory and by a pattern. -/
def pictureArguments : List Text :=
  ["a/x.png".toList, "a".toList, "a/x*".toList, "-o".toList, "out".toList]

/-- The bytes of the picture need not be text. -/
theorem run_unread_picture :
    let bytes : ByteArray := ⟨#[0xff, 0xfe]⟩
    let tree' := pictureTree.set (["a".toList] ++ ["x.png".toList]) (.file bytes)
    decodeUtf8? bytes = none ∧
      let outcome := run pictureArguments none .empty pictureTree
      let outcome' := run pictureArguments none .empty tree'
      outcome'.exitCode = outcome.exitCode ∧ outcome'.output = outcome.output ∧
        outcome'.errors = outcome.errors ∧
        ∃ nodes, outcome.tree = pictureTree.setAll nodes ∧ outcome'.tree = tree'.setAll nodes := by
  have hnode : pictureTree.node? (["a".toList] ++ ["x.png".toList]) =
      some (.file (encodeUtf8 "x".toList)) := by rfl
  have halike : AlikeInSources pictureTree
      (pictureTree.set (["a".toList] ++ ["x.png".toList]) (.file ⟨#[0xff, 0xfe]⟩)) :=
    alikeInSources_set hnode (by rfl) _
  exact ⟨by rfl, run_unread halike pictureArguments none .empty⟩

end CommandLine

end ShellDoc
