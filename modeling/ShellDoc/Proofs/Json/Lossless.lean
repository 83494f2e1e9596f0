import Mathlib.Data.List.Basic
import ShellDoc.Format
import ShellDoc.Proofs.Json.Printed
import ShellDoc.Proofs.Json.Reader

/-!
# JSON loses nothing

What a JSON text says is turned back into metadata and functions by `Value.metadata?` and
`Value.functions?`. They find the members of a function by their keys, and take a function without a
member for its metadata as one without a comment.

The functions of a script and the values of a comment come back as they were (`json_lossless`).
-/

namespace ShellDoc

namespace JsonText

/-! ## Reading metadata and functions -/

mutual

/-- The value of a comment that a JSON value stands for. -/
def Value.metadata? : Value → Option ShellDoc.Value
  | .string content => some (.text content)
  | .object members => .tree <$> members.tree?
  | _ => none

/-- The tree that the members of an object stand for, in their order. -/
def Members.tree? : Members → Option Tree
  | .nil => some .empty
  | .cons key value rest => do
    let value ← value.metadata?
    let rest ← rest.tree?
    return .member key value rest

end

/-- The elements in order. -/
def Values.toList : Values → List Value
  | .nil => []
  | .cons head tail => head :: tail.toList

/-- The value under a key. -/
def Members.find? (name : Text) : Members → Option Value
  | .nil => none
  | .cons key value rest => if key = name then some value else rest.find? name

/-- The text of a string. -/
def Value.string? : Value → Option Text
  | .string content => some content
  | _ => none

/-- The number that decimal digits spell. -/
def Value.whole? : Value → Option Nat
  | .number literal =>
    if literal.all Char.isDigit then some (Nat.ofDigitChars 10 literal 0) else none
  | _ => none

/-- The members of an object that names a type first of all or elsewhere. -/
def Value.membersOf? (type : Text) : Value → Option Members
  | .object members =>
    if (members.find? "type".toList).bind Value.string? = some type then some members else none
  | _ => none

/-- The metadata of a function, which may have none. -/
def Members.metadata? (members : Members) : Option (Option Tree) :=
  match members.find? "doxygen".toList with
  | none => some none
  | some (.object tree) => some <$> tree.tree?
  | some _ => none

/-- The function that a JSON value stands for. -/
def Value.function? (v : Value) : Option FunctionDoc := do
  let members ← v.membersOf? "Function".toList
  let name ← (members.find? "name".toList).bind Value.string?
  let line ← (members.find? "line".toList).bind Value.whole?
  let body ← (members.find? "body".toList).bind Value.string?
  let metadata? ← members.metadata?
  return ⟨name, line, body, metadata?⟩

/-- The functions of the script that a JSON value stands for. -/
def Value.functions? (v : Value) : Option (List FunctionDoc) := do
  let members ← v.membersOf? "ZshScript".toList
  match members.find? "functions".toList with
  | some (.array elements) => elements.toList.mapM Value.function?
  | _ => none

end JsonText

open JsonText

/-! ## What printed documents say -/

mutual

theorem Value.metadata?_said : ∀ v : Value, v.toJson.said.metadata? = some v
  | .text _ => rfl
  | .tree members => by
    show Value.tree <$> members.toJsonMembers.said.tree? = _
    rw [members.tree?_said]
    rfl

theorem Tree.tree?_said : ∀ tree : Tree, tree.toJsonMembers.said.tree? = some tree
  | .empty => rfl
  | .member key value rest => by
    have hvalue := value.metadata?_said
    have hrest := rest.tree?_said
    simp only [Tree.toJsonMembers, JsonMembers.said, Members.tree?, hvalue, hrest,
      Option.bind_eq_bind, Option.bind_some, Option.pure_def]

end

theorem whole?_said (n : Nat) : (Json.number n).said.whole? = some n := by
  have hdigits : (Nat.toDigits 10 n).all Char.isDigit = true :=
    List.all_eq_true.mpr fun c hc => Nat.isDigit_of_mem_toDigits (by decide) (by decide) hc
  rw [Json.said, Text.ofNat, Value.whole?, if_pos hdigits, Nat.ofDigitChars_ten_toDigits]

/-- The metadata of a function stands last, if it has any. -/
theorem FunctionDoc.function?_said (f : FunctionDoc) : f.toJson.said.function? = some f := by
  obtain ⟨name, line, body, metadata?⟩ := f
  have hline := whole?_said line
  cases metadata? with
  | none =>
    show ((Json.number line).said.whole?.bind fun line =>
      some (FunctionDoc.mk name line body none)) = _
    rw [hline]
    rfl
  | some tree =>
    show ((Json.number line).said.whole?.bind fun line =>
      (some <$> tree.toJsonMembers.said.tree?).bind fun metadata? =>
        some (FunctionDoc.mk name line body metadata?)) = _
    rw [hline, tree.tree?_said]
    rfl

theorem toList_said_ofList : ∀ documents : List Json,
    (JsonElements.ofList documents).said.toList = documents.map Json.said
  | [] => rfl
  | document :: rest => congrArg (document.said :: ·) (toList_said_ofList rest)

theorem functions?_said (functions : List FunctionDoc) :
    (Json.ofFunctions functions).said.functions? = some functions := by
  show (JsonElements.ofList (functions.map FunctionDoc.toJson)).said.toList.mapM _ = _
  rw [toList_said_ofList, List.map_map]
  induction functions with
  | nil => rfl
  | cons f rest ih =>
    rw [List.map_cons, List.mapM_cons, Function.comp_apply, f.function?_said, ih]
    rfl

/-! ## The round trip -/

/-- The text of an object ends with its bracket. -/
theorem getLast?_print_object (layout : Json.Layout) (members : JsonMembers) :
    ((Json.object members).print layout).getLast? = some '}' := by
  cases members with
  | nil => rfl
  | cons => exact List.getLast?_concat

/-- A script's functions in JSON are one document and a line feed, from which a reader that keeps
the order of members gets the same functions. So it is with the compact text of a value. -/
theorem json_lossless :
    (∀ functions : List FunctionDoc, ∃ document,
      Format.json.print functions = document ++ ['\n'] ∧ document.getLast? ≠ some '\n' ∧
      IsWellFormed document ∧
      (read? (Format.json.print functions)).bind Value.functions? = some functions) ∧
    (∀ v : Value, IsWellFormed (v.toJson.print .compact) ∧
      (read? (v.toJson.print .compact)).bind Value.metadata? = some v) := by
  constructor
  · intro functions
    let script := Json.ofFunctions functions
    have hdocument : IsDocument script.said (script.print .indented) :=
      Json.isDocument_print Json.Layout.onlyBlank_indented script
    have hwhole : IsDocument script.said (script.print .indented ++ ['\n']) :=
      hdocument.append_blank (List.forall_mem_singleton.mpr rfl)
    have hlast : (script.print .indented).getLast? = some '}' := getLast?_print_object _ _
    refine ⟨script.print .indented, rfl, ?_, ⟨script.said, hdocument⟩, ?_⟩
    · rw [hlast]
      decide
    · show (read? (script.print .indented ++ ['\n'])).bind Value.functions? = some functions
      rw [read?_of_isDocument hwhole, Option.bind_some, functions?_said]
  · intro v
    have hdocument : IsDocument v.toJson.said (v.toJson.print .compact) :=
      Json.isDocument_print Json.Layout.onlyBlank_compact v.toJson
    refine ⟨⟨v.toJson.said, hdocument⟩, ?_⟩
    rw [read?_of_isDocument hdocument, Option.bind_some, v.metadata?_said]

end ShellDoc
