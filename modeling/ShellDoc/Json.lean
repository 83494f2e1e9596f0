import ShellDoc.Text

/-!
# JSON documents

The documents that this library writes: strings, whole numbers, arrays, and objects whose members
keep their order. `Json.print` gives the text of a document in one of two layouts, which differ in
white space alone:

* **compact**: no white space at all;
* **indented**: each element and each member on a line of its own, two spaces deeper than the
  bracket that holds it, and a space behind the colon. Brackets with nothing in them stay together.

The program leaves both to a library, which is not among its own sources. The layouts, and which
characters of a string are escaped, are assumed.
-/

namespace ShellDoc

mutual

/-- A JSON document. -/
inductive Json where
  | string (content : Text)
  | number (value : Nat)
  | array (elements : JsonElements)
  | object (members : JsonMembers)

/-- The elements of an array in order. -/
inductive JsonElements where
  | nil
  | cons (head : Json) (tail : JsonElements)

/-- The members of an object in order. -/
inductive JsonMembers where
  | nil
  | cons (key : Text) (value : Json) (rest : JsonMembers)

end

deriving instance DecidableEq for Json, JsonElements, JsonMembers
deriving instance Repr for Json, JsonElements, JsonMembers

namespace JsonElements

/-- The elements of a list. -/
def ofList : List Json → JsonElements
  | [] => .nil
  | head :: tail => .cons head (ofList tail)

end JsonElements

namespace Json

/-- A hexadecimal digit in lower case. -/
def hexDigit (n : Nat) : Char :=
  Nat.digitChar n

/-- A character inside a string: the quote, the backslash and the control characters are escaped,
the latter by a letter if they have one, and every other character stands for itself. -/
def escapeChar (c : Char) : Text :=
  if c = '"' then ['\\', '"']
  else if c = '\\' then ['\\', '\\']
  else if c = '\n' then ['\\', 'n']
  else if c = '\r' then ['\\', 'r']
  else if c = '\t' then ['\\', 't']
  else if c = '\x08' then ['\\', 'b']
  else if c = '\x0c' then ['\\', 'f']
  else if c.toNat < 0x20 then
    ['\\', 'u', '0', '0', hexDigit (c.toNat / 16), hexDigit (c.toNat % 16)]
  else [c]

/-- A string in quotes. -/
def quote (content : Text) : Text :=
  '"' :: content.flatMap escapeChar ++ ['"']

/-- A layout: the white space that starts a line at a given depth, and what separates a key from its
value. -/
structure Layout where
  lineBreak : Nat → Text
  colon : Text

/-- The layout without white space. -/
def Layout.compact : Layout :=
  ⟨fun _ => [], [':']⟩

/-- The layout with one element or member a line. -/
def Layout.indented : Layout :=
  ⟨fun depth => '\n' :: List.replicate (2 * depth) ' ', [':', ' ']⟩

mutual

/-- The text of a document that stands at a given depth. -/
def printAt (layout : Layout) (depth : Nat) : Json → Text
  | .string content => quote content
  | .number value => .ofNat value
  | .array .nil => ['[', ']']
  | .array (.cons head tail) =>
    '[' :: layout.lineBreak (depth + 1) ++ printAt layout (depth + 1) head ++
      printElements layout (depth + 1) tail ++ layout.lineBreak depth ++ [']']
  | .object .nil => ['{', '}']
  | .object (.cons key value rest) =>
    '{' :: layout.lineBreak (depth + 1) ++ quote key ++ layout.colon ++
      printAt layout (depth + 1) value ++ printMembers layout (depth + 1) rest ++
      layout.lineBreak depth ++ ['}']

/-- The text of further elements, each behind a comma. -/
def printElements (layout : Layout) (depth : Nat) : JsonElements → Text
  | .nil => []
  | .cons head tail =>
    ',' :: layout.lineBreak depth ++ printAt layout depth head ++ printElements layout depth tail

/-- The text of further members, each behind a comma. -/
def printMembers (layout : Layout) (depth : Nat) : JsonMembers → Text
  | .nil => []
  | .cons key value rest =>
    ',' :: layout.lineBreak depth ++ quote key ++ layout.colon ++ printAt layout depth value ++
      printMembers layout depth rest

end

/-- The text of a document. -/
def print (layout : Layout) (document : Json) : Text :=
  printAt layout 0 document

end Json

end ShellDoc
