import ShellDoc.Text

/-!
# Metadata

What a doc comment says, as data: named values, each of them running text or again named values.
Parameters and whole comments are both of this form.

The order of a tree is part of it: names stand in the order in which they were first given. A tree
is built by `Tree.insert` alone, under which a name that is given again keeps its place and takes
its new value as a whole. `Tree.toList` is the view through which trees are read, and `Tree.ofList`
inserts the members of a list one by one.
-/

namespace ShellDoc

mutual

/-- A value: running text, or a tree of named values. -/
inductive Value where
  | text (content : Text)
  | tree (members : Tree)

/-- A tree: named values in the order in which their names were first given. -/
inductive Tree where
  | empty
  | member (key : Text) (value : Value) (rest : Tree)

end

deriving instance DecidableEq for Value, Tree
deriving instance Repr for Value, Tree

namespace Tree

/-- The members of a tree in order. -/
def toList : Tree → List (Text × Value)
  | .empty => []
  | .member key value rest => (key, value) :: rest.toList

/-- Whether a tree has no members. -/
def isEmpty : Tree → Bool
  | .empty => true
  | .member .. => false

/-- The value under a name. -/
def find? (name : Text) : Tree → Option Value
  | .empty => none
  | .member key value rest => if key = name then some value else rest.find? name

/-- Gives a name a value: in place if the tree has the name already, at the end if not. -/
def insert (name : Text) (content : Value) : Tree → Tree
  | .empty => .member name content .empty
  | .member key value rest =>
    if key = name then .member key content rest else .member key value (rest.insert name content)

/-- The tree that arises by inserting the members of a list in order. -/
def ofList (members : List (Text × Value)) : Tree :=
  members.foldl (fun tree (name, content) => tree.insert name content) .empty

end Tree

namespace Value

/-- The running text of a value that is not a tree. -/
def text? : Value → Option Text
  | .text content => some content
  | .tree _ => none

/-- The tree of a value that is not running text. -/
def tree? : Value → Option Tree
  | .text _ => none
  | .tree members => some members

/-- The value of a name that has no values below it: the trimmed text beside the name, or the empty
tree if there is none to speak of. -/
def ofInline (beside : Text) : Value :=
  if beside.trim = [] then .tree .empty else .text beside.trim

end Value

end ShellDoc
