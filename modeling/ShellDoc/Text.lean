/-!
# Text

A text is the list of its characters, so that every rule of this library is a recursion or a library
function on lists. Strings appear only where a program meets its surroundings.

This module holds the class of space characters and the few operations that all other modules share:
trimming and joining. Splitting is `List.splitOn`, and a test for a literal beginning is
`List.isPrefixOf?`, both of the standard library.
-/

namespace ShellDoc

/-- A text is the list of its characters. -/
abbrev Text := List Char

namespace Text

/-- Whether a character is white space: the blanks, line breaks and separators of every script. The
zero-width characters and the four information separators of ASCII are not white space. -/
def isSpace (c : Char) : Bool :=
  let code := c.toNat
  (9 ≤ code && code ≤ 13) || code == 0x20 || code == 0x85 || code == 0xA0 || code == 0x1680 ||
    (0x2000 ≤ code && code ≤ 0x200A) || code == 0x2028 || code == 0x2029 || code == 0x202F ||
    code == 0x205F || code == 0x3000

/-- The text without the white space at its start. -/
def trimStart (t : Text) : Text :=
  t.dropWhile isSpace

/-- The text without the white space at its end. -/
def trimEnd (t : Text) : Text :=
  (t.reverse.dropWhile isSpace).reverse

/-- The text without the white space at both ends. -/
def trim (t : Text) : Text :=
  t.trimStart.trimEnd

/-- The pieces one after another, with a separator between each two of them. -/
def join (separator : Text) (pieces : List Text) : Text :=
  separator.intercalate pieces

/-- The decimal digits of a number. -/
def ofNat (n : Nat) : Text :=
  Nat.toDigits 10 n

end Text

end ShellDoc
