import ShellDoc.Log.Directive
import ShellDoc.Text.Order

/-!
# Log filters

A filter is a list of directives. Of those whose scope covers an event the closest decides by its
level whether the event is shown: the one with the longest target, then one that asks for a field,
then the one whose field comes last in the order of texts, and of equals the last. An event that no
scope covers is not shown.

A log setting is a filter whose directives stand between commas. An empty setting shows errors. The
directives are read from the left. If one cannot be read, the setting is none at all, and if the
reader breaks off at one, so does the program.

The program leaves all this to a logging library, which is not among its own sources. Assumed of it
are the rules given here: which directives cover an event, which of them decides, and that the first
fault in a setting decides about the setting.
-/

namespace ShellDoc

/-- The name under which this program logs. -/
def programTarget : Text :=
  "doxysh".toList

namespace Scope

/-- Whether an event lies in a scope. This program logs nothing within spans. -/
def covers (s : Scope) (e : Event) : Bool :=
  s.target?.all (·.isPrefixOf programTarget) && s.span?.isNone &&
    s.field?.all fun field => field.value?.isNone && e.fieldNames.contains field.name

/-- The length of a target. A missing target is shorter than the empty one. -/
def targetSize (s : Scope) : Nat :=
  s.target?.elim 0 (·.length + 1)

/-- Whether a scope is less close than another to the events that both cover. -/
def looserThan (s other : Scope) : Bool :=
  if s.targetSize ≠ other.targetSize then s.targetSize < other.targetSize
  else
    match s.field?, other.field? with
    | _, none => false
    | none, some _ => true
    | some field, some otherField => field.name.before otherField.name

end Scope

/-- A filter: directives in the order in which they are given. -/
abbrev Filter := List Directive

namespace Filter

/-- The filter that gives one level to everything that this program logs. -/
def ofLevel (level : Level) : Filter :=
  [⟨⟨some programTarget, none, none⟩, some level⟩]

/-- The closer of two directives, the second if neither is. -/
def closer (best? : Option Directive) (d : Directive) : Option Directive :=
  match best? with
  | some best => if d.scope.looserThan best.scope then some best else some d
  | none => some d

/-- The directive that decides about an event. -/
def deciding? (filter : Filter) (e : Event) : Option Directive :=
  (List.filter (fun d => d.scope.covers e) filter).foldl closer none

/-- The level in force for an event. -/
def threshold (filter : Filter) (e : Event) : Threshold :=
  (filter.deciding? e).bind Directive.threshold

/-- Whether a filter admits an event. -/
def admits (filter : Filter) (e : Event) : Bool :=
  (filter.threshold e).admits e.level

/-- Reads a log setting. -/
def ofSetting (setting : Text) : Except Directive.Fault Filter := do
  let directives ← ((setting.splitOn ',').filter (· ≠ [])).mapM Directive.ofText
  return if directives = [] then [⟨.everything, some .error⟩] else directives

end Filter

end ShellDoc
