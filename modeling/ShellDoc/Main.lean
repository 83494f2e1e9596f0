import ShellDoc.CommandLine.Run

/-!
# The program

The outer layer: it collects what a run depends on, the arguments, the log setting, the input and
the part of the file system that the arguments mention, and carries out what the run decides.
Nothing is decided here.

The part of the file system is loaded before the run: what each argument leads to, and all of what
is below the directory that a pattern starts from. Bytes are loaded of shell sources only, since a
run looks at no others. What cannot be read or listed is loaded as denied.

What may not be written or entered does not show before it is tried. A run is decided as if all of
that were allowed, and where the system then refuses a change, the program ends with the words of
the system.
-/

namespace ShellDoc.Program

/-- All bytes of a stream behind those that were read. -/
partial def readBytes (stream : IO.FS.Stream) (read : ByteArray) : IO ByteArray := do
  let more ← stream.read 65536
  if more.isEmpty then return read else readBytes stream (read ++ more)

/-- The spelling of a location. -/
def spelling (location : Location) : Path :=
  ⟨'/' :: Text.join ['/'] location⟩

/-- The location that the first segments of a path lead to from a directory if there are no links.
-/
def locationOf (directory : Location) (p : Path) (segments : List Text) : Location :=
  segments.foldl FileTree.enter (if p.isAbsolute then [] else directory)

/-- A part of the file system: what is there, and what is denied. -/
structure Part where
  entries : List (Location × Node)
  denied : List (Location × Right)

/-- Several parts in one. -/
def Part.join (parts : List Part) : Part :=
  ⟨parts.flatMap Part.entries, parts.flatMap Part.denied⟩

/-- What is at a location. -/
def loadNode (location : Location) : IO Part := do
  let path := (← IO.currentDir) / String.ofList (spelling location).text
  if ← path.isDir then return ⟨[(location, .directory)], []⟩
  if !(← path.pathExists) then return ⟨[], []⟩
  if !Source.isShellSource (spelling location) then return ⟨[(location, .file .empty)], []⟩
  try
    return ⟨[(location, .file (← IO.FS.readBinFile path))], []⟩
  catch _ =>
    return ⟨[(location, .file .empty)], [(location, .read)]⟩

/-- What is at a location and at all locations above it. -/
def loadAbove (location : Location) : IO Part := do
  return .join (← (List.range' 1 location.length).mapM fun n => loadNode (location.take n))

/-- What is below a location: what a listing there finds, and if asked for all that is further
down. -/
partial def loadBelow (further : Bool) (location : Location) : IO Part := do
  let path := (← IO.currentDir) / String.ofList (spelling location).text
  if !(← path.isDir) then return ⟨[], []⟩
  try
    let names := (← path.readDir).toList.map (·.fileName.toList)
    let parts ← names.mapM fun name => do
      let below := location ++ [name]
      let node ← loadNode below
      if further then return .join [node, ← loadBelow further below] else return node
    return .join parts
  catch _ =>
    return ⟨[], [(location, .read)]⟩

/-- What an argument mentions: for a pattern all that is below its directory, for another path what
is there and directly below it. -/
def loadArgument (directory : Location) (argument : Text) : IO Part := do
  let p : Path := ⟨argument⟩
  let plain := p.segments.takeWhile fun segment => segment.all fun c => c ∉ ['*', '?', '[']
  let start := locationOf directory p plain
  return .join [← loadAbove start, ← loadBelow (plain != p.segments) start]

/-- The part of the file system that a run with the given options depends on. -/
def loadTree (options : CommandLine.Options) : IO FileTree := do
  let current : Path := ⟨(← IO.currentDir).toString.toList⟩
  let directory := locationOf [] current current.segments
  let mentioned := options.files ++ (options.output?.map Path.text).toList
  let parts ← mentioned.mapM (loadArgument directory)
  let part := Part.join ((← loadAbove directory) :: parts)
  return { entries := part.entries, workingDirectory := directory, denials := ⟨part.denied⟩ }

/-- Makes a directory or writes a file. -/
def store (change : Location × Node) : IO Unit := do
  let path := (← IO.currentDir) / String.ofList (spelling change.1).text
  match change.2 with
  | .directory => IO.FS.createDirAll path
  | .file content => IO.FS.writeBinFile path content

/-- Collects what a run depends on, and carries out what it decides. -/
def start (arguments : List String) : IO UInt32 := do
  let arguments := arguments.map String.toList
  let setting? := (← IO.getEnv "RUST_LOG").map String.toList
  let (input, tree) ←
    match CommandLine.parse arguments with
    | .ok (.run options) => do
      let input ←
        if CommandLine.readsInput options then readBytes (← IO.getStdin) .empty else pure .empty
      let tree ← if options.files.isEmpty then pure ⟨[], []⟩ else loadTree options
      pure (input, tree)
    | _ => pure (.empty, ⟨[], []⟩)
  let outcome := CommandLine.run arguments setting? input tree
  (outcome.tree.changesSince tree).forM store
  (← IO.getStderr).putStr (String.ofList outcome.errors)
  (← IO.getStdout).putStr (String.ofList outcome.output)
  return outcome.exitCode.toUInt32

end ShellDoc.Program

/-- The program. -/
def main (arguments : List String) : IO UInt32 :=
  ShellDoc.Program.start arguments
