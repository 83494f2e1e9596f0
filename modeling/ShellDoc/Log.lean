import ShellDoc.Source
import ShellDoc.Terminal

/-!
# The log

What a run reports on the way, from the errors that end it apart: events, each of one of five
levels. A threshold says which events are shown; it admits its own level and all more severe ones,
or nothing at all. No event has the level of errors, and none that of traces.

An event has a message, and some have fields besides. On its line the fields stand behind the
message, which is escaped for terminals; the fields are not.

How a line is laid out is up to a logging library, which is not among the program's own sources, and
is assumed.
-/

namespace ShellDoc

/-- The level of an event, the most severe first. -/
inductive Level where
  | error
  | warn
  | info
  | debug
  | trace
deriving DecidableEq, Repr

namespace Level

/-- The place of a level, the most severe first. -/
def rank : Level → Nat
  | .error => 1
  | .warn => 2
  | .info => 3
  | .debug => 4
  | .trace => 5

/-- The name of a level in lower case. -/
def name : Level → Text
  | .error => "error".toList
  | .warn => "warn".toList
  | .info => "info".toList
  | .debug => "debug".toList
  | .trace => "trace".toList

/-- The label of a level at the start of a line: its name in capitals, five characters wide. -/
def label (level : Level) : Text :=
  let name := level.name.map Char.toUpper
  List.replicate (5 - name.length) ' ' ++ name

end Level

/-- A threshold: the least severe level that is shown, or none if nothing is. -/
abbrev Threshold := Option Level

/-- Whether a threshold admits a level. -/
def Threshold.admits (threshold : Threshold) (level : Level) : Bool :=
  match threshold with
  | none => false
  | some least => level.rank ≤ least.rank

/-- An event of a run. -/
inductive Event where
  | parsedInput (functions : Nat)
  | parsed (source : Path) (functions : Nat)
  | nothingMatched (pattern : Text)
  | skipped (source : Path) (reason : Source.SourceError)
  | overwrites (source previous output : Path)
  | wrote (output : Path)
deriving DecidableEq, Repr

namespace Event

/-- The level of an event. -/
def level : Event → Level
  | .parsedInput _ | .parsed .. => .debug
  | .nothingMatched _ | .skipped .. | .overwrites .. => .warn
  | .wrote _ => .info

/-- The message of an event. -/
def message : Event → Text
  | .parsedInput _ => "parsed stdin".toList
  | .parsed .. => "parsed".toList
  | .nothingMatched pattern => "no files matched: ".toList ++ pattern
  | .skipped source reason => "skipping ".toList ++ source.text ++ ": ".toList ++ reason.summary
  | .overwrites source previous output =>
    source.text ++ " overwrites output of ".toList ++ previous.text ++ ": ".toList ++ output.text
  | .wrote output => "wrote ".toList ++ output.text

/-- The fields that an event has besides its message, with their names. -/
def fields : Event → List (Text × Text)
  | .parsedInput functions => [("functions".toList, .ofNat functions)]
  | .parsed source functions =>
    [("file".toList, source.text), ("functions".toList, .ofNat functions)]
  | .nothingMatched _ | .skipped .. | .overwrites .. | .wrote _ => []

/-- The names of all fields of an event. The message is one of them. -/
def fieldNames (e : Event) : List Text :=
  "message".toList :: e.fields.map Prod.fst

/-- The line for an event. -/
def line (e : Event) : Text :=
  e.level.label ++ ' ' :: Terminal.escape e.message ++
    (e.fields.flatMap fun (name, value) => ' ' :: name ++ '=' :: value) ++ ['\n']

end Event

end ShellDoc
