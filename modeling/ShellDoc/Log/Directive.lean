import ShellDoc.Log
import ShellDoc.Regex.Reading

/-!
# Log directives

A directive gives a level to all that its scope covers:

* `LEVEL` for everything;
* `TARGET=LEVEL` for what is logged under names that begin with the target;
* `TARGET[SPAN]=LEVEL` and `TARGET[SPAN{FIELD}]=LEVEL` for what is logged within a span of that
  name, or has that field. The target may be missing here, and so may the span in front of a field.
  A field may be given with a value, a number or a regular expression, behind an equals sign.

A scope without a level has the most talkative one, and so has an equals sign with nothing behind
it. A level is a word in any case, or a digit from 0, for nothing, to 5.

**Space** around a directive is set aside while its pieces are found. They are then taken from the
same places of the text with the space, the last of them up to its end. So a directive with space
around it seldom says anything about anything. The places are counted in bytes. One that falls
inside a character does not make the directive unreadable: there the reader breaks off, and the
program with it.

The program leaves the reading of log settings to a logging library, which is not among its own
sources. What stands here are the rules of that library. Assumed of it are the grammar of
directives, that a directive is read from the left and its first fault decides, and the places where
its pieces are cut.
-/

namespace ShellDoc

/-- A field that a scope asks for. A value, if it is asked for too, is looked for in spans. -/
structure FieldPattern where
  name : Text
  value? : Option Text
deriving DecidableEq, Repr

/-- What a directive is about. -/
structure Scope where
  target? : Option Text
  span? : Option Text
  field? : Option FieldPattern
deriving DecidableEq, Repr

/-- A directive of a log setting. -/
structure Directive where
  scope : Scope
  threshold : Threshold
deriving DecidableEq, Repr

/-- The scope that covers everything. -/
def Scope.everything : Scope :=
  ⟨none, none, none⟩

/-- The number that digits spell, with or without a plus sign before them. -/
def Threshold.number? (t : Text) : Option Nat :=
  let digits := if t.head? = some '+' then t.tail else t
  if digits ≠ [] ∧ digits.all Char.isDigit then
    some (digits.foldl (fun n c => 10 * n + (c.toNat - '0'.toNat)) 0)
  else
    none

/-- The levels that have names in settings, with the digits that stand for them. -/
def Threshold.named : List (Nat × Text × Threshold) :=
  [(0, "off".toList, none)] ++
    [Level.error, .warn, .info, .debug, .trace].map fun level =>
      (level.rank, level.name, some level)

/-- Reads a level. -/
def Threshold.ofText? (t : Text) : Option Threshold :=
  match number? t with
  | some n => (named.find? (·.1 == n)).map (·.2.2)
  | none => (named.find? (·.2.1 == t.map Char.toLower)).map (·.2.2)

namespace FieldPattern

/-- The text without a sign at its start. -/
def withoutSign (t : Text) : Text :=
  match t with
  | '+' :: rest | '-' :: rest => rest
  | _ => t

/-- Whether a text is nothing, or the exponent of a number. -/
def isExponent : Text → Bool
  | [] => true
  | e :: rest =>
    let digits := withoutSign rest
    (e == 'e' || e == 'E') && digits != [] && digits.all Char.isDigit

/-- Whether a text is a number in decimal digits, with or without a fraction and an exponent. -/
def isDecimal (t : Text) : Bool :=
  let whole := t.takeWhile Char.isDigit
  match t.dropWhile Char.isDigit with
  | '.' :: rest =>
    (whole != [] || (rest.takeWhile Char.isDigit) != []) && isExponent (rest.dropWhile Char.isDigit)
  | rest => whole != [] && isExponent rest

/-- Whether a text is a number, infinite ones and the word for none included. -/
def isNumber (t : Text) : Bool :=
  let size := withoutSign t
  isDecimal size ||
    ["inf".toList, "infinity".toList, "nan".toList].contains (size.map Char.toLower)

/-- Reads what stands between braces: a name, or a name and a value behind an equals sign. What
follows a second equals sign is left out. -/
def ofText? (t : Text) : Option FieldPattern :=
  if t = [] then none
  else
    match t.dropWhile (· != '=') with
    | [] => some ⟨t, none⟩
    | _ :: behind =>
      let value := behind.takeWhile (· != '=')
      if isNumber value || Regex.isExpression value then
        some ⟨t.takeWhile (· != '='), some value⟩
      else none

end FieldPattern

/-- Splits a text behind a number of bytes, unless this is inside a character. -/
def Text.splitBytes? : Nat → Text → Option (Text × Text)
  | 0, t => some ([], t)
  | _ + 1, [] => none
  | n + 1, c :: rest =>
    if c.utf8Size ≤ n + 1 then
      (splitBytes? (n + 1 - c.utf8Size) rest).map fun (before, behind) => (c :: before, behind)
    else none

namespace Directive

/-- Why a text could not be read as a directive. -/
inductive Fault where
  /-- It is none. -/
  | unreadable
  /-- A piece of it would begin or end inside a character, and the reader broke off. -/
  | brokenOff
deriving DecidableEq, Repr

/-- The text in front of a place, and that behind it. The place is given by what follows it in the
directive without the space around it. -/
def splitAt (t follows : Text) : Except Fault (Text × Text) :=
  match Text.splitBytes? (utf8Size (Text.trim t) - utf8Size follows) t with
  | some parts => .ok parts
  | none => .error .brokenOff

/-- The piece of a directive between two places. -/
def piece (t start stop : Text) : Except Fault Text := do
  let (before, _) ← splitAt t stop
  match Text.splitBytes? (utf8Size (Text.trim t) - utf8Size start) before with
  | some (_, inside) => return inside
  | none => .error .brokenOff

/-- The piece of a directive from a place to its end. -/
def lastPiece (t start : Text) : Except Fault Text :=
  Prod.snd <$> splitAt t start

/-- The text, or nothing if it is empty. -/
def nonempty? (t : Text) : Option Text :=
  if t = [] then none else some t

/-- Reads a field behind its opening brace, and returns what follows the brackets that close the
scope. -/
def readField (t field : Text) : Except Fault (FieldPattern × Text) :=
  match field.dropWhile (· != '\x7d') with
  | [] => .error .unreadable
  | stop@(_ :: behind) => do
    match FieldPattern.ofText? (← piece t field stop), behind with
    | some pattern, ']' :: rest => return (pattern, rest)
    | _, _ => .error .unreadable

/-- Reads a scope behind its opening bracket, and returns what follows the closing one. -/
def readBracket (t : Text) (target? : Option Text) (inside : Text) :
    Except Fault (Scope × Text) :=
  match inside.dropWhile fun c => c != ']' && c != '\x7b' with
  | [] => .error .unreadable
  | stop@(closing :: behind) => do
    let span ← piece t inside stop
    if closing = ']' then return (⟨target?, some span, none⟩, behind)
    let (field, rest) ← readField t behind
    return (⟨target?, nonempty? span, some field⟩, rest)

/-- Reads the scope of a directive. What is returned with it is nothing, or the equals sign in front
of a level and the level. -/
def readScope (t : Text) : Except Fault (Scope × Text) :=
  let body := Text.trim t
  match body.dropWhile fun c => c != '[' && c != '=' with
  | [] => return (⟨some t, none, none⟩, [])
  | stop@('[' :: inside) => do
    let target ← piece t body stop
    let (scope, rest) ← readBracket t (nonempty? target) inside
    if rest = [] ∨ rest.head? = some '=' then return (scope, rest) else .error .unreadable
  | stop => return (⟨some (← piece t body stop), none, none⟩, stop)

/-- Reads the level of a directive, given what stands behind its scope. -/
def readLevel (t : Text) : Text → Except Fault Threshold
  | [] => return some .trace
  | _ :: level => do
    let level ← lastPiece t level
    if level = [] then return some .trace
    match Threshold.ofText? level with
    | some threshold => return threshold
    | none => .error .unreadable

/-- Whether a directive may start with a character. -/
def mayStartWith (c : Char) : Bool :=
  c ∈ ['[', '-', ':', '_'] || Text.isAlphanumeric c

/-- Reads a directive. -/
def ofText (t : Text) : Except Fault Directive :=
  if (Text.trim t).head?.any mayStartWith then
    match Threshold.ofText? t with
    | some threshold => return ⟨.everything, threshold⟩
    | none => do
      let (scope, rest) ← readScope t
      return ⟨scope, ← readLevel t rest⟩
  else .error .unreadable

end Directive

end ShellDoc
