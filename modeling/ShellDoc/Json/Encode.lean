import ShellDoc.Json
import ShellDoc.Script.Scan

/-!
# Metadata and functions as JSON

Running text is a string and a tree is an object with its members in order. A function and a list of
functions are objects that name their type first. A function without a comment has no member for its
metadata, one with an empty comment has an empty object there.
-/

namespace ShellDoc

mutual

/-- The document of a value. -/
def Value.toJson : Value → Json
  | .text content => .string content
  | .tree members => .object members.toJsonMembers

/-- The members of the object that stands for a tree. -/
def Tree.toJsonMembers : Tree → JsonMembers
  | .empty => .nil
  | .member key value rest => .cons key value.toJson rest.toJsonMembers

end

/-- The document of a tree. -/
def Tree.toJson (tree : Tree) : Json :=
  .object tree.toJsonMembers

/-- The document of a function. -/
def FunctionDoc.toJson (f : FunctionDoc) : Json :=
  let metadata : JsonMembers :=
    match f.metadata? with
    | none => .nil
    | some tree => .cons "doxygen".toList tree.toJson .nil
  .object <| .cons "type".toList (.string "Function".toList) <|
    .cons "name".toList (.string f.name) <|
    .cons "line".toList (.number f.line) <|
    .cons "body".toList (.string f.body) metadata

/-- The document of the functions of a script. -/
def Json.ofFunctions (functions : List FunctionDoc) : Json :=
  .object <| .cons "type".toList (.string "ZshScript".toList) <|
    .cons "functions".toList (.array (.ofList (functions.map FunctionDoc.toJson))) .nil

end ShellDoc
