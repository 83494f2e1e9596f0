import ShellDoc.Text

/-!
# Paths

A path is kept as it is spelled, since that is how it is shown. What it means is read off its
spelling in two ways. **Segments** are the pieces between slashes, empty ones included; they are
what a walk through a file tree takes one by one. **Components** are what counts for comparing two
paths and for naming files: empty segments and inner dots are left out.
-/

namespace ShellDoc

/-- A path as it is spelled. -/
structure Path where
  text : Text
deriving DecidableEq, Repr

namespace Path

/-- A component of a path. The current directory is a component only at the start of a path. -/
inductive Component where
  | root
  | current
  | parent
  | name (text : Text)
deriving DecidableEq, Repr

/-- Whether a path starts at the root of the file system. -/
def isAbsolute (p : Path) : Bool :=
  p.text.head? == some '/'

/-- The pieces of a path between its slashes. -/
def segments (p : Path) : List Text :=
  p.text.splitOn '/'

/-- The component that a segment stands for behind the start of a path. -/
def component? (segment : Text) : Option Component :=
  if segment = [] ∨ segment = ['.'] then none
  else if segment = ['.', '.'] then some .parent
  else some (.name segment)

/-- The components of a path. -/
def components (p : Path) : List Component :=
  let start : List Component :=
    if p.isAbsolute then [.root] else if p.segments.head? = some ['.'] then [.current] else []
  start ++ p.segments.filterMap component?

/-- The spelling of a component between slashes. -/
def Component.segment : Component → Text
  | .root => []
  | .current => ['.']
  | .parent => ['.', '.']
  | .name text => text

/-- The plainest path with the given components. -/
def ofComponents : List Component → Path
  | [.root] => ⟨['/']⟩
  | components => ⟨Text.join ['/'] (components.map Component.segment)⟩

/-- The path of an entry of the directory at a path. -/
def join (p : Path) (name : Text) : Path :=
  if p.text = [] ∨ p.text.getLast? = some '/' then ⟨p.text ++ name⟩ else ⟨p.text ++ '/' :: name⟩

/-- Whether a path is the current directory, however it is spelled. -/
def isCurrent (p : Path) : Bool :=
  p.components == [.current]

/-- The name of the file that a path leads to, unless the path ends in the parent of a directory or
nowhere in particular. -/
def fileName? (p : Path) : Option Text :=
  match p.components.getLast? with
  | some (.name text) => some text
  | _ => none

/-- The directories above a path that its spelling mentions, the nearest first. -/
def ancestors (p : Path) : List Path :=
  let components := p.components
  (List.range' 1 (components.length - 1)).reverse.map fun n => ofComponents (components.take n)

/-- What stands before and behind the last dot of a name. -/
def splitLastDot? (name : Text) : Option (Text × Text) :=
  match name.reverse.dropWhile (· != '.') with
  | [] => none
  | _ :: stem => some (stem.reverse, (name.reverse.takeWhile (· != '.')).reverse)

/-- The extension of the file that a path leads to. A dot that starts the name does not start an
extension. -/
def extension? (p : Path) : Option Text := do
  let name ← p.fileName?
  let (stem, extension) ← splitLastDot? name
  guard (stem ≠ [])
  return extension

end Path

end ShellDoc
