import ShellDoc.FileTree
import ShellDoc.Script.Scan

/-!
# Shell sources

Which files are read as shell scripts is decided by their names alone: three extensions, and the
start files of the common shells, which have none. What a file is called decides also how its
documentation is called: leading dots and the extension go.
-/

namespace ShellDoc.Source

/-- The extensions of shell scripts. -/
def extensions : List Text :=
  ["sh".toList, "bash".toList, "zsh".toList]

/-- The names of start files. -/
def startFiles : List Text :=
  [".zshrc".toList, ".zshenv".toList, ".zprofile".toList, ".bashrc".toList, ".bash_profile".toList,
    ".profile".toList]

/-- Whether a path names a shell script. -/
def isShellSource (p : Path) : Bool :=
  p.extension?.any extensions.contains || p.fileName?.any startFiles.contains

/-- The name of the output for a path, without its extension. -/
def outputName (p : Path) : Text :=
  let name := (p.fileName?.getD []).dropWhile (· == '.')
  match Path.splitLastDot? name with
  | some (stem, extension) => if extensions.contains extension then stem else name
  | none => name

/-- Why a source could not be used. -/
inductive SourceError where
  | unsupported (p : Path)
  | unreadable (p : Path) (cause : FileError)
  | directoryUnreadable (p : Path) (cause : FileError)
deriving DecidableEq, Repr

namespace SourceError

/-- The words for an error without its cause. -/
def message : SourceError → Text
  | .unsupported p => "unsupported file type: ".toList ++ p.text
  | .unreadable p _ => "failed to read ".toList ++ p.text
  | .directoryUnreadable p _ => "failed to read directory: ".toList ++ p.text

/-- The cause of an error. -/
def cause? : SourceError → Option FileError
  | .unsupported _ => none
  | .unreadable _ cause => some cause
  | .directoryUnreadable _ cause => some cause

/-- The words for an error and its cause, on one line. -/
def summary (e : SourceError) : Text :=
  match e.cause? with
  | none => e.message
  | some cause => e.message ++ ": ".toList ++ cause.message

end SourceError

/-- The functions of a source. The name is looked at before the file is. -/
def readFunctions (tree : FileTree) (marker : Char) (p : Path) :
    Except SourceError (List FunctionDoc) :=
  if isShellSource p then
    match tree.readText p with
    | .ok script => .ok (Script.functions marker script)
    | .error cause => .error (.unreadable p cause)
  else
    .error (.unsupported p)

/-- The shell sources in a directory, not in the directories below it, in ascending order of their
names. -/
def sourcesIn (tree : FileTree) (directory : Path) : Except SourceError (List Path) :=
  match tree.list directory with
  | .ok names => .ok ((names.map directory.join).filter fun p => tree.isFile p && isShellSource p)
  | .error cause => .error (.directoryUnreadable directory cause)

end ShellDoc.Source
