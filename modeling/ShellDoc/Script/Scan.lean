import ShellDoc.Comment.Section
import ShellDoc.Script.Header

/-!
# Functions of a script

A script is read line by line, each line trimmed first. A line is one of four kinds, the first that
fits: a documentation line, a header, a closing brace, or another line.

**What is kept between lines.** The documentation lines since the last header or closing brace wait
for the next header, which takes them all; other lines do not disturb them. The function that is
open collects the other lines that are not empty as its body. A closing brace ends it and drops the
documentation inside it; with no function open it is just another line. A header that arrives while
a function is open replaces it, and a function that is still open at the end is not reported.
-/

namespace ShellDoc

/-- A function with its documentation: its name, the number of its header line counted from 1, its
body, and the metadata of the comment before it, if there was one. -/
structure FunctionDoc where
  name : Text
  line : Nat
  body : Text
  metadata? : Option Tree
deriving DecidableEq, Repr

namespace FunctionDoc

/-- The running text under a key of the metadata. -/
def text? (key : Text) (f : FunctionDoc) : Option Text := do
  let metadata ← f.metadata?
  let value ← metadata.find? key
  value.text?

/-- The parameters of the function, if its comment has a section for them. -/
def params? (f : FunctionDoc) : Option Tree := do
  let metadata ← f.metadata?
  let value ← metadata.find? Comment.paramsKey
  value.tree?

end FunctionDoc

namespace Script

/-- The kind of a line. -/
inductive LineKind where
  | documentation (text : Text)
  | header (name : Text)
  | closing
  | other
deriving DecidableEq, Repr

/-- The kind of a trimmed line. A documentation line starts with the marker twice and gives the text
behind it; the markers win over every other reading of the line. -/
def lineKind (marker : Char) (line : Text) : LineKind :=
  match (Comment.docMark marker).isPrefixOf? line with
  | some rest => .documentation (Text.trimStart rest)
  | none =>
    match headerName? line with
    | some name => .header name
    | none => if line = ['}'] then .closing else .other

/-- What the lines read so far leave to later lines: the documentation that waits for a header, and
the function that is open. -/
structure Reading where
  pending : List Text
  current? : Option FunctionDoc
deriving DecidableEq, Repr

/-- The reading before the first line. -/
def Reading.start : Reading :=
  ⟨[], none⟩

/-- The metadata that waiting documentation gives to a header: none at all if nothing waits. -/
def metadataOf? (marker : Char) (pending : List Text) : Option Tree :=
  if pending = [] then none else some (Comment.metadata marker (Text.join ['\n'] pending))

/-- A body with one more line, unless the line is empty. -/
def extendBody (body line : Text) : Text :=
  if line = [] then body else if body = [] then line else body ++ '\n' :: line

/-- Reads one trimmed line, and gives the function that it closes. -/
def Reading.next (marker : Char) (number : Nat) (line : Text) (reading : Reading) :
    Reading × Option FunctionDoc :=
  match lineKind marker line, reading.current? with
  | .documentation text, _ => ({ reading with pending := reading.pending ++ [text] }, none)
  | .header name, _ => (⟨[], some ⟨name, number, [], metadataOf? marker reading.pending⟩⟩, none)
  | .closing, some f => (.start, some f)
  | .closing, none => (reading, none)
  | .other, some f =>
    ({ reading with current? := some { f with body := extendBody f.body line } }, none)
  | .other, none => (reading, none)

/-- The functions that the lines close, the first of them having the given number. -/
def functionsFrom (marker : Char) (number : Nat) (reading : Reading) : List Text → List FunctionDoc
  | [] => []
  | line :: rest =>
    let (reading, closed?) := reading.next marker number line.trim
    closed?.toList ++ functionsFrom marker (number + 1) reading rest

/-- The functions of a script in the order in which they are closed. -/
def functions (marker : Char) (script : Text) : List FunctionDoc :=
  functionsFrom marker 1 .start (script.splitOn '\n')

end Script

end ShellDoc
