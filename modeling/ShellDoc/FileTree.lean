import ShellDoc.Path
import ShellDoc.Text.Order

/-!
# File trees

A file tree holds regular files and directories, and knows the directory in which relative paths
start. There are no links. Names and paths are texts: an entry whose name is no text is not part of
a tree.

**Rights.** A tree says what may not be done, and where. A file may be read and written over; a
directory may be listed, may get new entries, and may be entered on the way to what is in it. What
is denied stays denied, and for what is put at a location later on too, so that nothing is put where
it could not be written again. All else that can make a system refuse, such as a full disk, does not
happen.

**Walks.** A path is followed segment by segment. Every segment is looked up in a directory, the
empty ones and the dots included: so `f/` and `f/.` fail for a file `f`, and `d/../f` needs a
directory `d`. All but the empty ones enter that directory. A walk ends at a location, where
something may or may not be; `FileTree.node?` tells.

**Limits.** A name has at most 255 bytes. A longer one is an error when a walk comes to it, in a
directory that is there. A path has at most 4095 bytes and no zero byte, or the walk does not start.

**Changes.** A file is written whole, and directories are made one at a time. Nothing is ever
removed. `FileTree.createDirectories` makes the missing directories above a path too; if it fails it
may have made some of them.
-/

namespace ShellDoc

/-- A location: the names from the root of the file system down. -/
abbrev Location := List Text

/-- What is at a location. -/
inductive Node where
  | file (content : ByteArray)
  | directory

/-- Whether two nodes are directories, or files with the same bytes. -/
def Node.same : Node → Node → Bool
  | .directory, .directory => true
  | .file content, .file other => content.data == other.data
  | _, _ => false

/-- What may be done with what is at a location. -/
inductive Right where
  /-- To read a file, or to list a directory. -/
  | read
  /-- To write over a file, or to make entries of a directory. -/
  | write
  /-- To go through a directory. -/
  | enter
deriving DecidableEq, Repr

/-- The rights that are denied, each with its location. -/
class Denials where
  denied : List (Location × Right)

/-- A tree that does not say what is denied denies nothing. -/
instance : Denials :=
  ⟨[]⟩

/-- Why a file could not be used. -/
inductive FileError where
  | notFound
  | permissionDenied
  | alreadyExists
  | notDirectory
  | isDirectory
  | notText
  | zeroByte
  | nameTooLong
deriving DecidableEq, Repr

/-- The words in which an error is reported. -/
def FileError.message : FileError → Text
  | .notFound => "No such file or directory (os error 2)".toList
  | .permissionDenied => "Permission denied (os error 13)".toList
  | .alreadyExists => "File exists (os error 17)".toList
  | .notDirectory => "Not a directory (os error 20)".toList
  | .isDirectory => "Is a directory (os error 21)".toList
  | .notText => "stream did not contain valid UTF-8".toList
  | .zeroByte => "file name contained an unexpected NUL byte".toList
  | .nameTooLong => "File name too long (os error 36)".toList

/-- The text that bytes encode in UTF-8. -/
def decodeUtf8? (content : ByteArray) : Option Text :=
  (String.fromUTF8? content).map String.toList

/-- The bytes that encode a text in UTF-8. -/
def encodeUtf8 (text : Text) : ByteArray :=
  (String.ofList text).toUTF8

/-- The number of bytes that encode a text in UTF-8. -/
def utf8Size (text : Text) : Nat :=
  text.foldl (fun size c => size + c.utf8Size) 0

/-- A file tree: what is at each location but the root, the directory where relative paths start, and
what is denied. -/
structure FileTree where
  entries : List (Location × Node)
  workingDirectory : Location
  [denials : Denials]

namespace FileTree

/-- What is at a location. The root is a directory. -/
def node? (tree : FileTree) (location : Location) : Option Node :=
  if location = [] then some .directory else tree.entries.lookup location

/-- Whether something may be done at a location. -/
def allows (tree : FileTree) (right : Right) (location : Location) : Bool :=
  decide ((location, right) ∉ tree.denials.denied)

/-- The location that a segment leads to from a directory. The parent of the root is the root. -/
def enter (directory : Location) (segment : Text) : Location :=
  if segment = [] ∨ segment = ['.'] then directory
  else if segment = ['.', '.'] then directory.dropLast
  else directory ++ [segment]

/-- Follows segments from a location. All but the last must lead to directories. -/
def walk (tree : FileTree) (location : Location) : List Text → Except FileError Location
  | [] => .ok location
  | segment :: rest =>
    match tree.node? location with
    | none => .error .notFound
    | some (.file _) => .error .notDirectory
    | some .directory =>
      if segment ≠ [] ∧ tree.allows .enter location = false then .error .permissionDenied
      else if utf8Size segment > 255 then .error .nameTooLong
      else tree.walk (enter location segment) rest

/-- Refuses a path that leads nowhere in any file tree: an empty one, and one beyond the limits. -/
def check (p : Path) : Except FileError Unit :=
  if p.text.contains '\x00' then .error .zeroByte
  else if p.text = [] then .error .notFound
  else if utf8Size p.text > 4095 then .error .nameTooLong
  else .ok ()

/-- The location that a path leads to. -/
def locate (tree : FileTree) (p : Path) : Except FileError Location := do
  check p
  tree.walk (if p.isAbsolute then [] else tree.workingDirectory) p.segments

/-- What a path leads to. -/
def lookup (tree : FileTree) (p : Path) : Except FileError Node := do
  match tree.node? (← tree.locate p) with
  | some node => return node
  | none => .error .notFound

/-- Whether a path leads to a regular file. -/
def isFile (tree : FileTree) (p : Path) : Bool :=
  match tree.lookup p with
  | .ok (.file _) => true
  | _ => false

/-- Whether a path leads to a directory. -/
def isDirectory (tree : FileTree) (p : Path) : Bool :=
  match tree.lookup p with
  | .ok .directory => true
  | _ => false

/-- Whether a path leads to anything. -/
def isPresent (tree : FileTree) (p : Path) : Bool :=
  tree.isFile p || tree.isDirectory p

/-- What a path leads to, if it may be read. -/
def openToRead (tree : FileTree) (p : Path) : Except FileError Node := do
  let location ← tree.locate p
  match tree.node? location with
  | none => .error .notFound
  | some node => if tree.allows .read location then return node else .error .permissionDenied

/-- The bytes of a file. -/
def read (tree : FileTree) (p : Path) : Except FileError ByteArray := do
  match ← tree.openToRead p with
  | .file content => return content
  | .directory => .error .isDirectory

/-- The text of a file. -/
def readText (tree : FileTree) (p : Path) : Except FileError Text := do
  match decodeUtf8? (← tree.read p) with
  | some text => return text
  | none => .error .notText

/-- The names that lead from a location down to another. -/
def namesBelow? (location below : Location) : Option (List Text) :=
  (location.isPrefixOf? below).filter (· ≠ [])

/-- Whether a list of names may stand before another in a listing: by the names from the top down,
what is above before what is below. -/
def namesAscend (first second : List Text) : Bool :=
  !listBefore Text.before second first

/-- Whether names are found by listing one directory after another from a location down. To list
what is further down a directory must be entered. -/
def lists (tree : FileTree) (location : Location) : List Text → Bool
  | [] => true
  | name :: rest =>
    tree.allows .read location && (rest.isEmpty || tree.allows .enter location) &&
      tree.lists (location ++ [name]) rest

/-- What listings find below a location, as names from there down, in ascending order. -/
def descendants (tree : FileTree) (location : Location) : List (List Text) :=
  let names := tree.entries.filterMap fun (below, _) => namesBelow? location below
  (names.filter (tree.lists location)).mergeSort namesAscend

/-- What listings find below the directory that a path leads to; nothing for other paths. -/
def namesUnder (tree : FileTree) (p : Path) : List (List Text) :=
  match tree.isDirectory p, tree.locate p with
  | true, .ok location => tree.descendants location
  | _, _ => []

/-- The names that are listed for the directory that a path leads to; nothing for other paths. -/
def entryNames (tree : FileTree) (p : Path) : List Text :=
  (tree.namesUnder p).filterMap fun
    | [name] => some name
    | _ => none

/-- The names of the entries of a directory in ascending order. -/
def list (tree : FileTree) (p : Path) : Except FileError (List Text) := do
  match ← tree.lookup p with
  | .file _ => .error .notDirectory
  | .directory =>
    let _ ← tree.openToRead p
    return tree.entryNames p

/-- Whether a path leads to a directory that may be listed. -/
def isListable (tree : FileTree) (p : Path) : Bool :=
  match tree.list p with
  | .ok _ => true
  | .error _ => false

/-- Sets what is at a location, in place if something is there. -/
def put (location : Location) (node : Node) : List (Location × Node) → List (Location × Node)
  | [] => [(location, node)]
  | entry :: rest =>
    if entry.1 = location then (location, node) :: rest else entry :: put location node rest

/-- The tree with a node put at a location. -/
def set (tree : FileTree) (location : Location) (node : Node) : FileTree :=
  { tree with entries := put location node tree.entries }

/-- Whether something may be put at a location: it may be written there, and if nothing is there yet
the directory above may get new entries. -/
def mayPut (tree : FileTree) (location : Location) : Bool :=
  tree.allows .write location &&
    ((tree.node? location).isSome || tree.allows .write location.dropLast)

/-- The tree with a node put at a location, if that may be done. -/
def tryPut (tree : FileTree) (location : Location) (node : Node) : Except FileError FileTree :=
  if tree.mayPut location then .ok (tree.set location node) else .error .permissionDenied

/-- Writes a file, new or old. -/
def write (tree : FileTree) (p : Path) (content : ByteArray) : Except FileError FileTree := do
  let location ← tree.locate p
  match tree.node? location with
  | some .directory => .error .isDirectory
  | _ => tree.tryPut location (.file content)

/-- A path without the slashes at its end. A path of slashes alone keeps the first. -/
def withoutEndSlashes (p : Path) : Path :=
  match p.text with
  | [] => p
  | c :: rest => ⟨c :: (rest.reverse.dropWhile (· == '/')).reverse⟩

/-- Makes one directory. -/
def makeDirectory (tree : FileTree) (p : Path) : Except FileError FileTree := do
  check p
  let location ← tree.locate (withoutEndSlashes p)
  match tree.node? location with
  | some _ => .error .alreadyExists
  | none => tree.tryPut location .directory

/-- An attempt to change a tree: what became of it, and the error that ended the attempt. -/
structure Attempt where
  tree : FileTree
  error? : Option FileError

/-- Makes one directory unless it is there. -/
def ensureDirectory (tree : FileTree) (p : Path) : Attempt :=
  match tree.makeDirectory p with
  | .ok tree => ⟨tree, none⟩
  | .error error => if tree.isDirectory p then ⟨tree, none⟩ else ⟨tree, some error⟩

/-- Makes a directory, and those of the given directories above it that are missing, if it cannot be
made without them. -/
def createBelow (tree : FileTree) (p : Path) : List Path → Attempt
  | [] => tree.ensureDirectory p
  | parent :: above =>
    match tree.makeDirectory p with
    | .error .notFound =>
      let attempt := tree.createBelow parent above
      if attempt.error?.isSome then attempt else attempt.tree.ensureDirectory p
    | _ => tree.ensureDirectory p

/-- Makes a directory with all directories above it. A directory that exists is left alone. -/
def createDirectories (tree : FileTree) (p : Path) : Attempt :=
  if p.text = [] then ⟨tree, none⟩ else tree.createBelow p p.ancestors

/-- What is new in a tree, or differs from what was at the same location in an earlier one. -/
def changesSince (tree before : FileTree) : List (Location × Node) :=
  tree.entries.filter fun (location, node) => !(before.node? location).any node.same

/-- The changes below the working directory, for a file its path and content, for a directory its
path with a slash behind it, in ascending order of the paths. -/
def changedPaths (tree before : FileTree) : List (Text × Option ByteArray) :=
  let changed := (tree.changesSince before).filterMap fun (location, node) => do
    let names ← namesBelow? tree.workingDirectory location
    match node with
    | .file content => return (Text.join ['/'] names, some content)
    | .directory => return (Text.join ['/'] names ++ ['/'], none)
  changed.mergeSort fun first second => !second.1.before first.1

end FileTree

end ShellDoc
