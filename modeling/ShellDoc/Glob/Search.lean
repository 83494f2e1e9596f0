import ShellDoc.FileTree
import ShellDoc.Glob.Pattern

/-!
# Searching a file tree

A pattern is searched part by part, each part from the paths that the parts before it led to.

* **A literal part** is looked up without a listing. A dot and two dots need a directory to start
  from, other names need to be there.
* **A part with wildcards** is compared with the names in a directory. A name that starts with a dot
  is like any other. The directory itself and its parent are found too, but only by a part that
  starts with a dot.
* **A part for any number of directories** leads to everything below a directory, and the next part
  is compared with the names of what it leads to. At the end of a pattern it leads to directories
  only.

The paths that are found keep the spelling of the literal parts, except that the dot which starts a
search, written or not, is never part of a longer path.

Directories that may not be listed are passed over, with all that is below them. It takes no listing
to find something by its name in full.

**The order** is the one in which a search goes down: what is in a directory by name, each with what
is below it. Of the special entries the parent comes first, and both come before the names.

Like the patterns, the search is that of a library which is not among the program's own sources.
Assumed of it are the steps above, their order, and that what cannot be listed ends no search.
-/

namespace ShellDoc.Glob

/-- The path of what is in the directory at a path. The current directory is not spelled out. -/
def below (p : Path) (name : Text) : Path :=
  if p.isCurrent then ⟨name⟩ else p.join name

/-- The paths that a literal part leads to. -/
def literalStep (tree : FileTree) (p : Path) (name : Text) : List Path :=
  let q := below p name
  let found := if name = ['.'] ∨ name = ['.', '.'] then tree.isDirectory p else tree.isPresent q
  if found then [q] else []

/-- The special entries of a directory that tokens cover. -/
def specialEntries (tokens : List Token) (p : Path) : List Path :=
  if tokens.head? = some (.char '.') then
    ([['.', '.'], ['.']].filter (covers tokens)).map p.join
  else
    []

/-- The paths that a part with wildcards leads to. -/
def wildStep (tree : FileTree) (p : Path) (tokens : List Token) : List Path :=
  if tree.isListable p then
    specialEntries tokens p ++ ((tree.entryNames p).filter (covers tokens)).map (below p)
  else
    []

/-- Everything below a path, each with its own name. -/
def descents (tree : FileTree) (p : Path) : List (Path × Text) :=
  (tree.namesUnder p).map fun names => (below p (Text.join ['/'] names), names.getLastD [])

/-- The paths that parts lead to from a path. -/
def searchFrom (tree : FileTree) : List Part → Path → List Path
  | [], p => [p]
  | .literal name :: parts, p => (literalStep tree p name).flatMap (searchFrom tree parts)
  | .wild tokens :: parts, p => (wildStep tree p tokens).flatMap (searchFrom tree parts)
  | [.anyDepth], p => ((descents tree p).map Prod.fst).filter tree.isDirectory
  | .anyDepth :: part :: parts, p =>
    ((descents tree p).filter fun (_, name) => part.covers name).flatMap fun (q, _) =>
      searchFrom tree parts q

/-- The paths that a pattern finds in a file tree. -/
def Pattern.search (pattern : Pattern) (tree : FileTree) : List Path :=
  let found := searchFrom tree pattern.parts ⟨if pattern.isAbsolute then ['/'] else ['.']⟩
  if pattern.directoriesOnly then found.filter tree.isDirectory else found

end ShellDoc.Glob
