import ShellDoc.Regex.Mode

/-!
# Escapes in regular expressions

What may stand behind a backslash: the code point of a character in hexadecimal digits, the letter
of a class of characters or of a place, the letter of a control character, or a mark that is meant
as it is. Letters without a meaning and all digits are errors.

Readers return what they have read and the number of characters that it takes.

A word boundary is no place that can be used among characters, only among bytes.
-/

namespace ShellDoc.Regex

/-- What a part of an expression stands for that is no group: one character, any of several, or a
place between characters. -/
inductive Atom where
  | literal (c : Char)
  | oneOfMany
  | place
deriving DecidableEq, Repr

/-- The value of a hexadecimal digit. -/
def hexDigit? (c : Char) : Option Nat :=
  if '0' ≤ c ∧ c ≤ '9' then some (c.toNat - '0'.toNat)
  else if 'a' ≤ c ∧ c ≤ 'f' then some (c.toNat - 'a'.toNat + 10)
  else if 'A' ≤ c ∧ c ≤ 'F' then some (c.toNat - 'A'.toNat + 10)
  else none

/-- The letters in front of hexadecimal digits, with the number of digits. -/
def hexWidths : List (Char × Nat) :=
  [('x', 2), ('u', 4), ('U', 8)]

/-- The letters of control characters. -/
def controlLetters : List (Char × Char) :=
  [('a', '\x07'), ('f', '\x0c'), ('t', '\t'), ('n', '\n'), ('r', '\r'), ('v', '\x0b')]

/-- The letters of the general categories, all in capitals. -/
def categoryLetters : List Char :=
  "CLMNPSZ".toList

/-- Whether a character behind a backslash stands for itself: the marks of ASCII, but not the two
angle brackets. -/
def isEscapable (c : Char) : Bool :=
  c.toNat < 0x80 && !c.isAlphanum && c != '<' && c != '>'

namespace Mode

/-- Reads hexadecimal digits. What is skipped may stand in front of each. -/
def readHex? (mode : Mode) (value : Nat) : Nat → Text → Option (Nat × Nat)
  | 0, _ => some (value, 0)
  | digits + 1, t => do
    let blank := mode.blankLength t
    let digit ← (t.drop blank).head?.bind hexDigit?
    let (value, n) ← mode.readHex? (16 * value + digit) digits (t.drop (blank + 1))
    return (value, blank + 1 + n)

/-- Reads a character as two, four or eight hexadecimal digits. Two digits mean a byte if the
expression is about bytes. -/
def readCodePoint? (mode : Mode) (width : Nat) (t : Text) : Option (Atom × Nat) := do
  let (code, n) ← mode.readHex? 0 width t
  guard code.isValidChar
  guard (mode.unicode ∨ width ≠ 2 ∨ code < 0x80)
  return (.literal (Char.ofNat code), n)

/-- Reads the letter of a general category. -/
def readCategory? (mode : Mode) (t : Text) : Option (Atom × Nat) := do
  let blank := mode.blankLength t
  let letter ← (t.drop blank).head?
  guard (mode.unicode ∧ letter.toUpper ∈ categoryLetters)
  return (.oneOfMany, blank + 1)

/-- What a single character stands for behind a backslash. -/
def escaped? (mode : Mode) (c : Char) : Option Atom :=
  if c ∈ ['d', 's', 'w'] then some .oneOfMany
  else if c ∈ ['D', 'S', 'W'] then if mode.unicode then some .oneOfMany else none
  else if c ∈ ['A', 'z'] then some .place
  else if c ∈ ['b', 'B', '<', '>'] then if mode.unicode then none else some .place
  else if isEscapable c then some (.literal c)
  else (controlLetters.lookup c).map .literal

/-- Reads what stands behind a backslash. -/
def readEscape? (mode : Mode) : Text → Option (Atom × Nat)
  | [] => none
  | c :: rest => do
    let (atom, n) ←
      match hexWidths.lookup c with
      | some width => mode.readCodePoint? width rest
      | none =>
        if c ∈ ['p', 'P'] then mode.readCategory? rest else (mode.escaped? c).map (·, 0)
    return (atom, n + 1)

end Mode

end ShellDoc.Regex
