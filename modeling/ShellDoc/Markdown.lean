import ShellDoc.Script.Scan
import ShellDoc.Text.Lowercase

/-!
# Markdown pages

The functions of a script as one page: an index that links to each function, then a chapter for each
function. A chapter has blocks for the description, the usage, the parameters, the other sections
and the source, in this order, and leaves out what is empty. Each block ends with an empty line.

Sections other than the three with blocks of their own are listed as details if they are running
text. Parameters are a nested list, two spaces a level.
-/

namespace ShellDoc.Markdown

/-- The keys of the sections that have blocks of their own. -/
def dedicatedKeys : List Text :=
  ["description".toList, "usage".toList, Comment.paramsKey]

/-- The anchor of a heading: in lower case, with hyphens for spaces, and without every character
that is neither a letter nor a digit nor a hyphen. -/
def anchor (heading : Text) : Text :=
  heading.lowercase.filterMap fun c =>
    if c = ' ' then some '-' else if Text.isAlphanumeric c || c == '-' then some c else none

/-- A name in bold. -/
def bold (name : Text) : Text :=
  "**".toList ++ name ++ "**".toList

mutual

/-- The lines of a nested list with a tree's members in order. -/
def treeLines (level : Nat) : Tree → List Text
  | .empty => []
  | .member key value rest => valueLines level key value ++ treeLines level rest

/-- The lines of one item of a nested list and of the items below it. -/
def valueLines (level : Nat) (key : Text) : Value → List Text
  | .text content =>
    [List.replicate (2 * level) ' ' ++ "* ".toList ++ bold key ++ ": ".toList ++ content]
  | .tree members =>
    (List.replicate (2 * level) ' ' ++ "* ".toList ++ bold key) :: treeLines (level + 1) members

end

/-- The lines under a heading, with an empty line before and behind them; nothing if there are none.
-/
def block (heading : String) (lines : List Text) : List Text :=
  if lines = [] then [] else (heading.toList ++ ['\n']) :: lines ++ [[]]

/-- The paragraph that describes a function. -/
def descriptionLines (f : FunctionDoc) : List Text :=
  match f.text? "description".toList with
  | none | some [] => []
  | some text => [text, []]

/-- The usage of a function, set as code. -/
def usageLines (f : FunctionDoc) : List Text :=
  match f.text? "usage".toList with
  | none | some [] => []
  | some text => ['\x60' :: text ++ ['\x60']]

/-- The parameters of a function. -/
def parameterLines (f : FunctionDoc) : List Text :=
  match f.params? with
  | none => []
  | some tree => treeLines 0 tree

/-- A section without a block of its own: its key, and its text if it has one. -/
def detailLine? (key : Text) (value : Value) : Option Text :=
  if key ∈ dedicatedKeys then none
  else
    match value with
    | .text [] => some ("* ".toList ++ bold key)
    | .text text => some ("* ".toList ++ bold key ++ ": ".toList ++ text)
    | .tree _ => none

/-- The sections without blocks of their own. -/
def detailLines (f : FunctionDoc) : List Text :=
  match f.metadata? with
  | none => []
  | some metadata => metadata.toList.filterMap fun (key, value) => detailLine? key value

/-- The body of a function, set as a block of code. -/
def sourceLines (f : FunctionDoc) : List Text :=
  if f.body = [] then []
  else ["\x60\x60\x60zsh".toList, f.body, "\x60\x60\x60".toList]

/-- The chapter of a function. -/
def chapter (f : FunctionDoc) : Text :=
  .join ['\n'] <|
    ["### ".toList ++ f.name ++ ['\n']] ++
      descriptionLines f ++
      block "#### Usage" (usageLines f) ++
      block "#### Parameters" (parameterLines f) ++
      block "#### Details" (detailLines f) ++
      block "#### Source" (sourceLines f)

/-- The index entry of a function. -/
def indexLine (f : FunctionDoc) : Text :=
  "* [".toList ++ f.name ++ "](#".toList ++ anchor f.name ++ ")\n".toList

/-- The index of a page, left out if there is nothing to list. -/
def index (functions : List FunctionDoc) : Text :=
  if functions = [] then []
  else "## Index\n\n".toList ++ functions.flatMap indexLine ++ ['\n']

/-- The page of a script's functions. -/
def page (functions : List FunctionDoc) : Text :=
  index functions ++ functions.flatMap fun f => chapter f ++ ['\n']

end ShellDoc.Markdown
