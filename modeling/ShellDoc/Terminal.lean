import ShellDoc.Text

/-!
# Text for terminals

A terminal obeys some of the characters that it is sent. Text that comes from outside is made
harmless in one of two ways before it is reported:

* **escaping**: a character that a terminal might obey is written out, by its code point. Nothing is
  lost;
* **stripping**: control sequences are taken out, and so are single control characters, line breaks
  and blanks apart.

**Control sequences** start with the escape character. One to three characters make a short one.
With an opening bracket behind the escape a sequence goes on to a letter. Strings for a device or
for the system go on to an end of their own. An escape inside a sequence starts another, and two
characters of ASCII cancel any.

**A blank inside a sequence** does not belong to it and is shown. Then all is shown that could be
shown outside, up to a control character; only there does the sequence go on.

The program leaves the one to its logging library and the other to its library for command lines,
which are not among its own sources. Assumed of them are the characters and sequences named here, and
what becomes of each.
-/

namespace ShellDoc.Terminal

/-- Writes a character out if a terminal might obey it: bell, backspace, form feed, escape and
delete, and the control characters behind ASCII. The remaining control characters stay. -/
def escapeChar (c : Char) : Text :=
  if c ∈ ['\x07', '\x08', '\x0c', '\x1b', '\x7f'] then
    ['\\', 'x', Nat.digitChar (c.toNat / 16), Nat.digitChar (c.toNat % 16)]
  else if 0x80 ≤ c.toNat ∧ c.toNat ≤ 0x9f then
    "\\u\x7b".toList ++ Nat.toDigits 16 c.toNat ++ "\x7d".toList
  else [c]

/-- Writes out all characters of a text that a terminal might obey. -/
def escape (t : Text) : Text :=
  t.flatMap escapeChar

/-- Where a terminal is in the text that it reads: outside of sequences, or in one of some kind. -/
inductive State where
  | outside
  | escaped
  | escapedIntermediate
  | sequence
  | deviceStart
  | deviceParameters
  | deviceIntermediate
  | string
  | systemString
deriving DecidableEq, Repr

/-- Whether the code point of a character lies in a closed interval. -/
def isBetween (low high : Nat) (c : Char) : Bool :=
  low ≤ c.toNat && c.toNat ≤ high

/-- Whether a character ends a string. The end is a byte, which may also occur in the encoding of a
character. -/
def endsString (c : Char) : Bool :=
  (String.utf8EncodeChar c).contains 0x9c

namespace State

/-- Where a character leads that is not shown. -/
def next (s : State) (c : Char) : State :=
  if c = '\x1b' then .escaped
  else if c = '\x18' ∨ c = '\x1a' then .outside
  else
    match s with
    | .outside => .outside
    | .escaped =>
      if isBetween 0x20 0x2f c then .escapedIntermediate
      else if c = '[' then .sequence
      else if c = ']' then .systemString
      else if c = 'P' then .deviceStart
      else if c ∈ ['X', '^', '_'] then .string
      else if isBetween 0x30 0x7e c then .outside
      else .escaped
    | .escapedIntermediate => if isBetween 0x30 0x7e c then .outside else .escapedIntermediate
    | .sequence => if isBetween 0x40 0x7e c then .outside else .sequence
    | .deviceStart =>
      if isBetween 0x20 0x2f c then .deviceIntermediate
      else if isBetween 0x30 0x3f c then .deviceParameters
      else if isBetween 0x40 0x7e c then .string
      else .deviceStart
    | .deviceParameters =>
      if isBetween 0x20 0x2f c then .deviceIntermediate
      else if isBetween 0x3c 0x7e c then .string
      else .deviceParameters
    | .deviceIntermediate => if isBetween 0x30 0x7e c then .string else .deviceIntermediate
    | .string => if endsString c then .outside else .string
    | .systemString => if c = '\x07' then .outside else .systemString

/-- Whether a character is shown: blanks are, except in strings, and outside of sequences all that
is no control character of ASCII. -/
def shows (s : State) (c : Char) : Bool :=
  let blank := c ∈ ['\t', '\n', '\x0c', '\r']
  match s with
  | .outside => blank || (0x20 ≤ c.toNat && c ≠ '\x7f')
  | .escaped | .escapedIntermediate | .sequence => blank
  | .deviceStart | .deviceParameters | .deviceIntermediate | .string | .systemString => false

end State

/-- What is shown of a text that is read from a state. `showing` tells that the character before it
was shown. A character that is not of ASCII ends the sequence that a blank has left open. -/
def stripFrom (s : State) (showing : Bool) : Text → Text
  | [] => []
  | c :: rest =>
    if (if showing then State.outside else s).shows c then
      c :: stripFrom (if c.toNat < 0x80 then s else .outside) true rest
    else
      stripFrom (s.next c) false rest

/-- The text without its control sequences and control characters. -/
def strip (t : Text) : Text :=
  stripFrom .outside false t

end ShellDoc.Terminal
