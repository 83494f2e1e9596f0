import ShellDoc.Path
import ShellDoc.Text.Order

/-!
# The order of paths

Paths are ordered component by component: the root comes first, then the current directory, then the
parent directory, then names in their order as texts. Two spellings with the same components are the
same path to this order.

A list in strictly ascending order is kept so by `Path.insert`, which leaves the list alone if it
holds the path already, in whatever spelling.
-/

namespace ShellDoc.Path

/-- Whether a component comes before another. -/
def Component.before : Component → Component → Bool
  | .root, .root => false
  | .root, _ => true
  | .current, .root | .current, .current => false
  | .current, _ => true
  | .parent, .name _ => true
  | .parent, _ => false
  | .name t, .name u => t.before u
  | .name _, _ => false

/-- Whether a path comes before another. -/
def before (p q : Path) : Bool :=
  listBefore Component.before p.components q.components

/-- Inserts a path into an ascending list. -/
def insert (p : Path) : List Path → List Path
  | [] => [p]
  | q :: rest =>
    if p.before q then p :: q :: rest
    else if q.before p then q :: insert p rest
    else q :: rest

/-- Inserts paths one after another into an ascending list. -/
def insertAll (paths : List Path) (ascending : List Path) : List Path :=
  paths.foldl (fun sorted p => insert p sorted) ascending

end ShellDoc.Path
