import ShellDoc.Text

/-!
# Comment lines

A comment line carries its text behind a run of the marker character, `#` in a shell script. The
rules of comments are stated on bare lines: lines without that run and without the white space
around it.

Only the run at the start goes. A marker that stands behind white space after the run belongs to the
text, and so does every later one.
-/

namespace ShellDoc.Comment

/-- What a line of a documentation comment starts with: the marker, twice. -/
def docMark (marker : Char) : Text :=
  [marker, marker]

/-- A line without its leading run of markers and the white space around it. -/
def bareLine (marker : Char) (line : Text) : Text :=
  Text.trim (line.trimStart.dropWhile (· == marker))

/-- The bare lines of a block. A block has one line more than it has line feeds, so that blank lines
keep their places. -/
def bareLines (marker : Char) (block : Text) : List Text :=
  (block.splitOn '\n').map (bareLine marker)

end ShellDoc.Comment
