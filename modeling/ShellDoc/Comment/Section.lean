import ShellDoc.Comment.Line
import ShellDoc.Comment.Parameter

/-!
# Sections

A documentation comment falls into sections. A section starts at a line whose first word begins with
an at sign; the word without that sign is its key, and what follows on the line is the start of its
text. The lines up to the next section continue the text, each joined with one space, except that a
text which is still empty takes a line as it is.

Two keys are special. The section `params` holds the parameters that all later lines of the comment
spell out, other sections included, and has no text to continue. An empty key is recorded and opens
no section. Lines before the first section say nothing.

A key that is given again starts afresh, in its first place.
-/

namespace ShellDoc.Comment

/-- The key of the section that holds the parameters. -/
def paramsKey : Text :=
  "params".toList

/-- Reads a line that starts a section: the key, and the trimmed text behind the first word. -/
def sectionLine? (line : Text) : Option (Text × Text) :=
  match line.takeWhile (!Text.isSpace ·) with
  | '@' :: key => some (key, Text.trim (line.dropWhile (!Text.isSpace ·)))
  | _ => none

/-- The text of a section with one more line. -/
def continued (text line : Text) : Text :=
  if text = [] then line else text ++ ' ' :: line

/-- The text under a key, empty if there is none. -/
def textUnder (key : Text) (metadata : Tree) : Text :=
  ((metadata.find? key).bind Value.text?).getD []

/-- Reads the sections of the remaining lines into what was read before them. `current?` is the key
of the section whose text the next line would continue. -/
def readSections (metadata : Tree) (current? : Option Text) : List Text → Tree
  | [] => metadata
  | line :: rest =>
    match sectionLine? line with
    | some (key, text) =>
      if key = paramsKey then
        readSections (metadata.insert key (.tree (Parameter.tree 1 rest))) none rest
      else
        readSections (metadata.insert key (.text text)) (if key = [] then none else some key) rest
    | none =>
      match current? with
      | none => readSections metadata none rest
      | some key =>
        readSections (metadata.insert key (.text (continued (textUnder key metadata) line)))
          (some key) rest

/-- The sections that the bare lines of a comment spell out. -/
def sections (lines : List Text) : Tree :=
  readSections .empty none lines

/-- The metadata of a comment block whose lines may carry markers. -/
def metadata (marker : Char) (block : Text) : Tree :=
  sections (bareLines marker block)

end ShellDoc.Comment
