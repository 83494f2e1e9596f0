import ShellDoc.Regex.Escape

/-!
# Brackets in regular expressions

A class of characters stands in brackets: single characters, ranges, escapes, named classes, and
classes in brackets of their own. A circumflex at its start negates it. Two classes in the same
brackets are combined by a doubled mark between them.

Hyphens at the start of a class stand for themselves, and so does a closing bracket there. Later a
hyphen between two characters makes a range, unless it is doubled or the last thing in the class.

An expression about bytes may neither negate a class nor name a character outside of ASCII in one.
-/

namespace ShellDoc.Regex

/-- How deep things are nested that stand side by side, given their own depths: two or more make one
level more. -/
def joinedDepth : List Nat → Nat
  | [] => 0
  | [depth] => depth
  | depths => 1 + depths.foldl Nat.max 0

/-- How far a class has been read. -/
inductive Phase where
  | opened
  | negated
  | hyphens
  | inside
deriving DecidableEq, Repr

/-- An open class: the depth of what stands in front of its last doubled mark, if there is one, and
the depths of the items behind it. -/
structure Bracket where
  phase : Phase
  left? : Option Nat
  items : List Nat
deriving DecidableEq, Repr

/-- What a class may go on with. -/
inductive BracketPart where
  | negation
  | hyphen
  | item
  | operator
  | opening
  | closing
deriving DecidableEq, Repr

namespace Bracket

/-- A class that has just been opened. -/
def empty : Bracket :=
  ⟨.opened, none, []⟩

/-- How deep the inside of a class is nested. -/
def innerDepth (b : Bracket) : Nat :=
  match b.left? with
  | none => joinedDepth b.items
  | some left => 1 + Nat.max left (joinedDepth b.items)

/-- A class with one item more. -/
def add (b : Bracket) (depth : Nat) : Bracket :=
  { b with phase := .inside, items := depth :: b.items }

/-- A class with one part more that is no class itself. -/
def take (b : Bracket) : BracketPart → Bracket
  | .negation => { b with phase := .negated }
  | .hyphen => { b.add 0 with phase := .hyphens }
  | .item => b.add 0
  | .operator => ⟨.inside, some b.innerDepth, []⟩
  | .opening | .closing => { b with phase := .inside }

end Bracket

/-- The names that may stand between colons in a class. -/
def classNames : List Text :=
  ["alnum".toList, "alpha".toList, "ascii".toList, "blank".toList, "cntrl".toList, "digit".toList,
    "graph".toList, "lower".toList, "print".toList, "punct".toList, "space".toList, "upper".toList,
    "word".toList, "xdigit".toList]

/-- Reads a named class behind its opening bracket: whether it is negated, and the number of its
characters. -/
def readNamedClass? : Text → Option (Bool × Nat)
  | ':' :: rest =>
    let negated := rest.head? == some '^'
    let mark := if negated then 1 else 0
    let name := (rest.drop mark).takeWhile (· != ':')
    if classNames.contains name && ":]".toList.isPrefixOf (rest.drop (mark + name.length)) then
      some (negated, 1 + mark + name.length + 2)
    else none
  | _ => none

namespace Mode

/-- Reads one end of a range, or what may be taken for one. -/
def readMember? (mode : Mode) : Text → Option (Atom × Nat)
  | [] => none
  | '\\' :: rest => (mode.readEscape? rest).map fun (atom, n) => (atom, n + 1)
  | c :: _ => some (.literal c, 1)

/-- The number of characters from a text to the second end of a range, if the text goes on with a
hyphen that makes one. -/
def hyphenLength? (mode : Mode) (t : Text) : Option Nat :=
  let before := mode.blankLength t
  match t.drop before with
  | '-' :: rest =>
    let behind := mode.blankLength rest
    match rest.drop behind with
    | [] | '-' :: _ | ']' :: _ => none
    | _ :: _ => some (before + 1 + behind)
  | _ => none

/-- Whether a class may name a character. -/
def mayName (mode : Mode) (c : Char) : Bool :=
  mode.unicode || c.toNat < 0x80

/-- Reads a single character, a range or an escape in a class. -/
def readItem? (mode : Mode) (t : Text) : Option Nat := do
  let (first, n) ← mode.readMember? t
  match mode.hyphenLength? (t.drop n), first with
  | none, .literal c => if mode.mayName c then some n else none
  | none, .oneOfMany => some n
  | some hyphen, .literal c =>
    match ← mode.readMember? (t.drop (n + hyphen)) with
    | (.literal d, m) =>
      guard (c.toNat ≤ d.toNat ∧ mode.mayName c ∧ mode.mayName d)
      return n + hyphen + m
    | _ => none
  | _, _ => none

/-- Reads the next part of a class that has been read so far, given its first character. -/
def readBracketPart? (mode : Mode) (phase : Phase) (c : Char) (rest : Text) :
    Option (BracketPart × Nat) :=
  match phase, c with
  | .opened, '^' => if mode.unicode then some (.negation, 0) else none
  | .opened, '-' | .negated, '-' | .hyphens, '-' => some (.hyphen, 0)
  | .opened, ']' | .negated, ']' => some (.item, 0)
  | _, ']' => some (.closing, 0)
  | _, '[' =>
    match readNamedClass? rest with
    | some (negated, n) => if negated && !mode.unicode then none else some (.item, n)
    | none => some (.opening, 0)
  | _, _ =>
    if c ∈ ['&', '-', '~'] ∧ rest.head? = some c then some (.operator, 1)
    else (mode.readItem? (c :: rest)).map fun n => (.item, n - 1)

end Mode

end ShellDoc.Regex
