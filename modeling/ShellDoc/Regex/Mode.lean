import ShellDoc.Text

/-!
# Modes of regular expressions

A regular expression is read in a mode, which flags inside it may change. Two of the flags matter
for what can be read:

* **extended** (`x`): white space between the parts is skipped, and so are comments, which go from a
  number sign to the end of the line;
* **unicode** (`u`, on at the start): the expression is about characters. Without it parts of it are
  about bytes, and then it may not speak of bytes that are no characters on their own.
-/

namespace ShellDoc.Regex

/-- How a regular expression is read. -/
structure Mode where
  extended : Bool
  unicode : Bool
deriving DecidableEq, Repr

/-- The number of characters of white space and comments at the start of a text. -/
def blankLengthFrom (inComment : Bool) : Text → Nat
  | [] => 0
  | c :: rest =>
    if inComment then 1 + blankLengthFrom (c != '\n') rest
    else if Text.isSpace c then 1 + blankLengthFrom false rest
    else if c = '#' then 1 + blankLengthFrom true rest
    else 0

namespace Mode

/-- The mode in which an expression starts. -/
def start : Mode :=
  ⟨false, true⟩

/-- The number of characters at the start of a text that are skipped. -/
def blankLength (mode : Mode) (t : Text) : Nat :=
  if mode.extended then blankLengthFrom false t else 0

/-- The mode that flags make of another. Those behind a hyphen are switched off. -/
def apply (mode : Mode) (flags : Text) : Mode :=
  let on := flags.takeWhile (· != '-')
  let off := flags.dropWhile (· != '-')
  ⟨(mode.extended || on.contains 'x') && !off.contains 'x',
    (mode.unicode || on.contains 'u') && !off.contains 'u'⟩

end Mode

/-- Whether a text is a list of flags: each at most once, and one hyphen at most, not at the end. -/
def areFlags (t : Text) : Bool :=
  t.all "imsURux-".toList.contains && t.eraseDups.length == t.length && t.getLast? != some '-'

end ShellDoc.Regex
