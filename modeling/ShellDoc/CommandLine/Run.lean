import ShellDoc.CommandLine.Failure
import ShellDoc.CommandLine.Help
import ShellDoc.Format
import ShellDoc.Glob.Search
import ShellDoc.Log.Filter
import ShellDoc.Path.Order

/-!
# Runs

A run of the program, as a function of its arguments, its log setting, its input and the file tree
that it finds. It has one of three modes:

* **block**: the input is one comment block, and its metadata is printed as JSON;
* **input**: the input is a script, and its functions are printed in the format asked for;
* **files**: scripts are read from files, and each with functions gets an output file.

**Files.** The output directory is made first. Then each argument is resolved: to itself if it is a
file, to the shell sources in it if it is a directory, to what it finds if it is a pattern. All that
was found is sorted and each path kept once. The paths are then read and written one by one, so that
a later output replaces an earlier one of the same name. A path that cannot be used is skipped.

**Verbosity comes last.** A run gathers all its events. Which of them are shown is decided
afterwards, by the filter in force, and decides nothing else.

**The log setting comes first.** It is read before anything else is done, if the flags leave it to
the setting what is shown. Where its reader breaks off, the run is over, with an exit code of its
own and nothing changed.
-/

namespace ShellDoc.CommandLine

/-- What a run did: its events in order, how it ended, and the file tree that it leaves. It ends
with what it prints or with a failure. -/
structure Report where
  events : List Event
  result : Except Failure Text
  tree : FileTree

/-- The text of the input, if it is one. -/
def readInput (input : ByteArray) : Except Failure Text :=
  match decodeUtf8? input with
  | some text => .ok text
  | none => .error .inputNotText

/-- The format that the options name. -/
def formatOf (options : Options) : Except Failure Format :=
  match Format.ofName? options.format with
  | some format => .ok format
  | none => .error (.unknownFormat options.format)

/-- Prints the metadata of the comment block that is the input. -/
def runBlock (options : Options) (input : ByteArray) (tree : FileTree) : Report :=
  let result := do
    if options.files ≠ [] then throw Failure.blockTakesNoFiles
    let block ← readInput input
    return (Comment.metadata options.marker block).toJson.print .indented ++ ['\n']
  ⟨[], result, tree⟩

/-- Prints the functions of the script that is the input. -/
def runInput (options : Options) (input : ByteArray) (tree : FileTree) : Report :=
  let read : Except Failure (Format × List FunctionDoc) := do
    let format ← formatOf options
    let script ← readInput input
    return (format, Script.functions options.marker script)
  match read with
  | .error failure => ⟨[], .error failure, tree⟩
  | .ok (format, functions) =>
    ⟨[.parsedInput functions.length], .ok (format.print functions), tree⟩

/-- The paths that one argument stands for. -/
def resolve (tree : FileTree) (argument : Text) : Except Failure (List Path) :=
  let p : Path := ⟨argument⟩
  if tree.isFile p then .ok [p]
  else if tree.isDirectory p then (Source.sourcesIn tree p).mapError .badSource
  else
    match Glob.Pattern.ofText argument with
    | .ok pattern => .ok ((pattern.search tree).filter tree.isFile)
    | .error cause => .error (.badPattern argument cause)

/-- The event that an argument stands for nothing. -/
def noteEmpty (argument : Text) (found : List Path) : List Event :=
  if found = [] then [.nothingMatched argument] else []

/-- The paths that the remaining arguments stand for, inserted into those that were found before. -/
def expandInto (tree : FileTree) (found : List Path) :
    List Text → List Event × Except Failure (List Path)
  | [] => ([], .ok found)
  | argument :: rest =>
    match resolve tree argument with
    | .error failure => ([], .error failure)
    | .ok paths =>
      let (events, result) := expandInto tree (Path.insertAll paths found) rest
      (noteEmpty argument paths ++ events, result)

/-- The paths that the arguments stand for, in ascending order. -/
def expand (tree : FileTree) (arguments : List Text) : List Event × Except Failure (List Path) :=
  expandInto tree [] arguments

/-- Where the output for a source goes. -/
def outputPath (directory : Path) (format : Format) (source : Path) : Path :=
  directory.join (Source.outputName source ++ '.' :: format.extension)

/-- The event that an output replaces an earlier one. -/
def noteOverwrite (written : List (Path × Path)) (source output : Path) : List Event :=
  match written.lookup output with
  | some previous => [.overwrites source previous output]
  | none => []

/-- Reads and writes the sources one by one. `written` holds the outputs so far with their sources,
the latest first. -/
def writeAll (marker : Char) (format : Format) (directory : Path) (written : List (Path × Path))
    (tree : FileTree) : List Path → Report
  | [] => ⟨[], .ok [], tree⟩
  | source :: rest =>
    match Source.readFunctions tree marker source with
    | .error reason =>
      let report := writeAll marker format directory written tree rest
      { report with events := .skipped source reason :: report.events }
    | .ok [] =>
      let report := writeAll marker format directory written tree rest
      { report with events := .parsed source 0 :: report.events }
    | .ok functions =>
      let output := outputPath directory format source
      let before := .parsed source functions.length :: noteOverwrite written source output
      match tree.write output (encodeUtf8 (format.print functions)) with
      | .error cause => ⟨before, .error (.notWritten output cause), tree⟩
      | .ok tree =>
        let report := writeAll marker format directory ((output, source) :: written) tree rest
        { report with events := before ++ .wrote output :: report.events }

/-- Writes an output file for each script that the arguments stand for. -/
def runFiles (options : Options) (tree : FileTree) : Report :=
  match options.output? with
  | none => ⟨[], .error .outputRequired, tree⟩
  | some directory =>
    match formatOf options with
    | .error failure => ⟨[], .error failure, tree⟩
    | .ok format =>
      match tree.createDirectories directory with
      | ⟨tree, some cause⟩ => ⟨[], .error (.directoryNotCreated directory cause), tree⟩
      | ⟨tree, none⟩ =>
        match expand tree options.files with
        | (events, .error failure) => ⟨events, .error failure, tree⟩
        | (events, .ok sources) =>
          let report := writeAll options.marker format directory [] tree sources
          { report with events := events ++ report.events }

/-- Whether a run with the given options comes to reading its input. -/
def readsInput (options : Options) : Bool :=
  options.files.isEmpty && (options.block || (Format.ofName? options.format).isSome)

/-- A run with the given options. -/
def runWith (options : Options) (input : ByteArray) (tree : FileTree) : Report :=
  if options.block then runBlock options input tree
  else if options.files = [] then runInput options input tree
  else runFiles options tree

/-- The filter in force: that of the flags, the talkative one first, or else the log setting if
there is one that can be read, or else all down to what was written. There is none if the reader of
the log setting breaks off. -/
def filterInForce? (options : Options) (setting? : Option Text) : Option Filter :=
  if options.verbose then some (.ofLevel .debug)
  else if options.quiet then some (.ofLevel .error)
  else
    match setting?.map Filter.ofSetting with
    | some (.ok filter) => some filter
    | some (.error .brokenOff) => none
    | some (.error .unreadable) | none => some (.ofLevel .info)

/-- The lines of the events that a filter admits. -/
def shown (filter : Filter) (events : List Event) : Text :=
  (events.filter filter.admits).flatMap Event.line

/-- What a run leaves behind: its exit code, what it printed and reported, and the file tree. -/
structure Outcome where
  exitCode : Nat
  output : Text
  errors : Text
  tree : FileTree

/-- What a run leaves behind when the events that a filter does not admit are not shown. -/
def Report.outcome (report : Report) (filter : Filter) : Outcome :=
  match report.result with
  | .ok output => ⟨0, output, shown filter report.events, report.tree⟩
  | .error failure => ⟨1, [], shown filter report.events ++ failure.report, report.tree⟩

/-- What a run leaves behind if the reader of the log setting breaks off. The report of this is in
the reader's own words, and left out. -/
def Outcome.brokenOff (tree : FileTree) : Outcome :=
  ⟨101, [], [], tree⟩

/-- A run of the program. -/
def run (arguments : List Text) (setting? : Option Text) (input : ByteArray) (tree : FileTree) :
    Outcome :=
  match parse arguments with
  | .error e => ⟨2, [], e.report, tree⟩
  | .ok .help => ⟨0, helpText, [], tree⟩
  | .ok (.run options) =>
    match filterInForce? options setting? with
    | none => .brokenOff tree
    | some filter => (runWith options input tree).outcome filter

end ShellDoc.CommandLine
