import ShellDoc.Regex.Bracket
import ShellDoc.Text.Alphanumeric

/-!
# Reading regular expressions

An expression is read part by part: characters, escapes, classes in brackets, groups in parentheses,
alternatives between bars, and marks that repeat what stands in front of them. All that is kept of
the parts is how deep they are nested, for that is limited. So this is a test whether a text is a
regular expression, and no more.

**Groups** may have a name, which no other group has, or flags that hold inside them. Flags alone in
parentheses hold from there to the end of the group around them.

**Repetition** needs something to repeat, and flags are nothing. A count in braces is not read: the
texts that this library takes for expressions never hold a closing brace.

The grammar is that of the expressions in log settings. It belongs to a library which is not among
the program's own sources, and is assumed.
-/

namespace ShellDoc.Regex

/-- The deepest nesting that is allowed. -/
def depthLimit : Nat :=
  250

/-- What has been read of a group, or of the whole outside of groups: the mode that is in force, the
depths of its finished alternatives, and those of the parts of the last, the latest first. Flags
have no depth. -/
structure Level where
  mode : Mode
  finished : List Nat
  parts : List (Option Nat)
deriving DecidableEq, Repr

namespace Level

/-- A group of which nothing has been read. -/
def start (mode : Mode) : Level :=
  ⟨mode, [], []⟩

/-- How deep the last alternative is nested. -/
def lastDepth (l : Level) : Nat :=
  joinedDepth (l.parts.map (·.getD 0))

/-- How deep everything is nested. -/
def depth (l : Level) : Nat :=
  joinedDepth (l.lastDepth :: l.finished)

/-- With one part more. -/
def add (l : Level) (depth : Nat) : Level :=
  { l with parts := some depth :: l.parts }

/-- With the last part repeated. -/
def repeated? (l : Level) : Option Level :=
  match l.parts with
  | some depth :: parts => some { l with parts := some (depth + 1) :: parts }
  | _ => none

end Level

/-- What an opening parenthesis starts. -/
inductive Opening where
  | group (mode : Mode)
  | named (name : Text)
  | flags (mode : Mode)
deriving DecidableEq, Repr

/-- Whether a text may name a group. -/
def isGroupName : Text → Bool
  | [] => false
  | c :: rest =>
    (c == '_' || Text.isAlphabetic c) &&
      rest.all fun d => ['_', '.', '[', ']'].contains d || Text.isAlphanumeric d

/-- Reads the name of a group behind its opening angle bracket. -/
def readGroupName? (t : Text) : Option (Opening × Nat) :=
  let name := t.takeWhile (· != '>')
  if isGroupName name && name.length < t.length then some (.named name, name.length + 1) else none

namespace Mode

/-- Reads flags behind the question mark that announces them. -/
def readFlags? (mode : Mode) (t : Text) : Option (Opening × Nat) :=
  let flags := t.takeWhile fun c => c != ':' && c != ')'
  if areFlags flags then
    match t.drop flags.length with
    | ':' :: _ => some (.group (mode.apply flags), flags.length + 1)
    | ')' :: _ => if flags = [] then none else some (.flags (mode.apply flags), flags.length + 1)
    | _ => none
  else none

/-- Reads what stands behind an opening parenthesis. -/
def readOpening? (mode : Mode) (t : Text) : Option (Opening × Nat) :=
  let blank := mode.blankLength t
  let counted (n : Nat) (opening : Opening × Nat) := (opening.1, blank + n + opening.2)
  match t.drop blank with
  | '?' :: 'P' :: '<' :: rest => (readGroupName? rest).map (counted 3)
  | '?' :: '<' :: rest => (readGroupName? rest).map (counted 2)
  | '?' :: rest => (mode.readFlags? rest).map (counted 1)
  | _ => some (.group mode, 0)

end Mode

/-- What has been read of an expression: the innermost group with those around it, the names of
groups, and the open brackets, the innermost first. -/
structure Reading where
  level : Level
  outer : List Level
  names : List Text
  brackets : List Bracket
deriving DecidableEq, Repr

namespace Reading

/-- Nothing has been read. -/
def start : Reading :=
  ⟨.start .start, [], [], []⟩

/-- With one part more in the innermost group. -/
def add (r : Reading) (depth : Nat) : Reading :=
  { r with level := r.level.add depth }

/-- With an opening parenthesis and what belongs to it. -/
def enter? (r : Reading) : Opening → Option Reading
  | .flags mode => some { r with level := { r.level with mode, parts := none :: r.level.parts } }
  | .group mode => some { r with level := .start mode, outer := r.level :: r.outer }
  | .named name =>
    if r.names.contains name then none
    else some ⟨.start r.level.mode, r.level :: r.outer, name :: r.names, r.brackets⟩

/-- With a closing parenthesis. -/
def leave? (r : Reading) : Option Reading :=
  match r.outer with
  | [] => none
  | level :: outer => some { r with level := level.add (r.level.depth + 1), outer }

/-- With a bar between alternatives. -/
def alternate (r : Reading) : Reading :=
  { r with level := ⟨r.level.mode, r.level.lastDepth :: r.level.finished, []⟩ }

/-- With a closing bracket, given the class that it closes and those around it. -/
def close (r : Reading) (b : Bracket) : List Bracket → Reading
  | [] => { r.add (b.innerDepth + 1) with brackets := [] }
  | around :: brackets => { r with brackets := around.add (b.innerDepth + 1) :: brackets }

/-- Reads the next part inside a class. -/
def stepInBracket? (r : Reading) (b : Bracket) (brackets : List Bracket) (c : Char)
    (rest : Text) : Option (Reading × Nat) := do
  let (part, n) ← r.level.mode.readBracketPart? b.phase c rest
  match part with
  | .opening => return ({ r with brackets := .empty :: b.take part :: brackets }, n)
  | .closing => return (r.close b brackets, n)
  | _ => return ({ r with brackets := b.take part :: brackets }, n)

/-- Reads the next part outside of classes. -/
def stepOutside? (r : Reading) (c : Char) (rest : Text) : Option (Reading × Nat) :=
  match c with
  | '(' => do
    let (opening, n) ← r.level.mode.readOpening? rest
    return (← r.enter? opening, n)
  | ')' => r.leave?.map (·, 0)
  | '|' => some (r.alternate, 0)
  | '[' => some ({ r with brackets := [.empty] }, 0)
  | '?' | '*' | '+' =>
    r.level.repeated?.map fun level =>
      ({ r with level }, if rest.head? = some '?' then 1 else 0)
  | '\x7b' => none
  | '\\' => (r.level.mode.readEscape? rest).map fun (_, n) => (r.add 0, n)
  | '.' => if r.level.mode.unicode then some (r.add 0, 0) else none
  | _ => some (r.add 0, 0)

/-- Reads the next part, given its first character and what follows that, and returns the number of
the following characters that belong to it too. -/
def step? (r : Reading) (c : Char) (rest : Text) : Option (Reading × Nat) :=
  match r.level.mode.blankLength (c :: rest), r.brackets with
  | blank + 1, _ => some (r, blank)
  | 0, [] => r.stepOutside? c rest
  | 0, b :: brackets => r.stepInBracket? b brackets c rest

/-- Reads a text but for some characters at its start that belong to the part before. -/
def readFrom? (r : Reading) : Nat → Text → Option Reading
  | _, [] => some r
  | skipped + 1, _ :: rest => r.readFrom? skipped rest
  | 0, c :: rest => do
    let (r, skipped) ← r.step? c rest
    r.readFrom? skipped rest

/-- Whether an expression may end here. -/
def isComplete (r : Reading) : Bool :=
  r.outer.isEmpty && r.brackets.isEmpty && r.level.depth ≤ depthLimit

end Reading

/-- Whether a text is a regular expression. -/
def isExpression (t : Text) : Bool :=
  (Reading.start.readFrom? 0 t).any Reading.isComplete

end ShellDoc.Regex
