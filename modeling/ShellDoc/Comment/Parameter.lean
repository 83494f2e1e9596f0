import ShellDoc.Metadata

/-!
# Parameters

Nested parameters are written one a line, and the number of dashes in front says how deep:

    -@file    what to read
    -@mode    how to read it
    --@fast   without looking
    --@slow   with care

**The region rule.** The lines below a parameter are those that follow it up to the next line with
as many dashes, whether that line is a parameter or not. They are read one level deeper; what stands
there at other depths is noise to this level. A parameter with parameters below it is their tree,
and the text beside it is dropped.
-/

namespace ShellDoc.Parameter

/-- Whether a character may stand in the name of a parameter: ASCII letters, digits, underscore. -/
def isNameChar (c : Char) : Bool :=
  c.isAlphanum || c == '_'

/-- The number of dashes that the trimmed line starts with. -/
def dashes (line : Text) : Nat :=
  (line.trim.takeWhile (· == '-')).length

/-- A parameter line read: its dashes, the name behind the at sign, and the text beside it. -/
structure Line where
  depth : Nat
  name : Text
  beside : Text
deriving DecidableEq, Repr

/-- Reads a parameter line: dashes, an at sign, the longest possible name, white space, and the
rest. At least one dash and a name are required, and the rest may not contain a line feed. -/
def line? (line : Text) : Option Line :=
  match line.trim.dropWhile (· == '-') with
  | '@' :: behind =>
    let name := behind.takeWhile isNameChar
    let beside := Text.trimStart (behind.dropWhile isNameChar)
    if dashes line ≠ 0 ∧ name ≠ [] ∧ '\n' ∉ beside then some ⟨dashes line, name, beside⟩ else none
  | _ => none

/-- Reads a parameter line of a given depth. -/
def lineAt? (depth : Nat) (line : Text) : Option Line :=
  (line? line).filter (·.depth == depth)

/-- The lines up to the first with `depth` dashes. -/
def region (depth : Nat) (lines : List Text) : List Text :=
  lines.takeWhile (dashes · != depth)

theorem length_region_le (depth : Nat) (lines : List Text) :
    (region depth lines).length ≤ lines.length :=
  (List.takeWhile_sublist _).length_le

/-- The value of a parameter: what stands below it, or the text beside it if nothing does. -/
def value (beside : Text) (below : Tree) : Value :=
  if below.isEmpty then .ofInline beside else .tree below

/-- The parameters of a given depth with their values, in the order of their lines. -/
def members (depth : Nat) : List Text → List (Text × Value)
  | [] => []
  | line :: rest =>
    match lineAt? depth line with
    | none => members depth rest
    | some found =>
      (found.name, value found.beside (.ofList (members (depth + 1) (region depth rest)))) ::
        members depth rest
termination_by lines => lines.length
decreasing_by
  · simp
  · exact Nat.lt_succ_of_le (length_region_le depth rest)
  · simp

/-- The tree of parameters of a given depth that the lines spell out. -/
def tree (depth : Nat) (lines : List Text) : Tree :=
  .ofList (members depth lines)

end ShellDoc.Parameter
