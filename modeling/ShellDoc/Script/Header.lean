import ShellDoc.Text

/-!
# Header lines

A function definition opens with a header, in one of two forms:

    function NAME [()] {
    NAME () {

Blanks, that is spaces and tabs, may stand between the parts; they must stand after the keyword.
What follows the brace is not looked at. The keyword form is tried first, though no line has both
forms.
-/

namespace ShellDoc.Script

/-- Whether a character may stand in the name of a function. -/
def isNameChar (c : Char) : Bool :=
  c.isAlphanum || c == '_' || c == ':' || c == '.' || c == '-'

/-- Whether a character is a space or a tab. -/
def isBlank (c : Char) : Bool :=
  c == ' ' || c == '\t'

/-- The word that introduces the keyword form. -/
def keyword : Text :=
  "function".toList

/-- The text without the blanks at its start. -/
def skipBlanks (t : Text) : Text :=
  t.dropWhile isBlank

/-- What follows a pair of parentheses with nothing but blanks in it. -/
def afterParentheses? : Text → Option Text
  | '(' :: inside =>
    match skipBlanks inside with
    | ')' :: rest => some rest
    | _ => none
  | _ => none

/-- Whether a brace follows after blanks. -/
def opensBody (t : Text) : Bool :=
  (skipBlanks t).head? == some '{'

/-- The name in a header that starts with the keyword. The parentheses may be left out. -/
def keywordHeader? (line : Text) : Option Text := do
  let behind ← keyword.isPrefixOf? line
  let start := skipBlanks behind
  let name := start.takeWhile isNameChar
  let rest := skipBlanks (start.dropWhile isNameChar)
  guard (start ≠ behind ∧ name ≠ [])
  guard (opensBody ((afterParentheses? rest).getD rest))
  return name

/-- The name in a header that starts with the name. The parentheses are required. -/
def plainHeader? (line : Text) : Option Text := do
  let name := line.takeWhile isNameChar
  guard (name ≠ [])
  let rest ← afterParentheses? (skipBlanks (line.dropWhile isNameChar))
  guard (opensBody rest)
  return name

/-- The name of the function that a line opens, if the line is a header. -/
def headerName? (line : Text) : Option Text :=
  keywordHeader? line <|> plainHeader? line

end ShellDoc.Script
