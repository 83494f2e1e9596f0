import ShellDoc.Json.Encode
import ShellDoc.Markdown

/-!
# Output formats

The two formats in which the functions of a script are printed, their names on the command line, and
the extensions of the files that hold them.
-/

namespace ShellDoc

/-- An output format. -/
inductive Format where
  | json
  | markdown
deriving DecidableEq, Repr

namespace Format

/-- The format of a name. Markdown has a short name too. -/
def ofName? (name : Text) : Option Format :=
  if name = "json".toList then some .json
  else if name = "markdown".toList ∨ name = "md".toList then some .markdown
  else none

/-- The extension of an output file. -/
def extension : Format → Text
  | .json => "json".toList
  | .markdown => "md".toList

/-- The text of a script's functions. A JSON document ends with a line feed. -/
def print (functions : List FunctionDoc) : Format → Text
  | .json => (Json.ofFunctions functions).print .indented ++ ['\n']
  | .markdown => Markdown.page functions

end Format

end ShellDoc
