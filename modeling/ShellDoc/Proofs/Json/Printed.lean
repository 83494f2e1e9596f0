import Mathlib.Data.List.Basic
import Mathlib.Data.Nat.Digits.Lemmas
import ShellDoc.Json
import ShellDoc.Proofs.Json.Grammar

/-!
# Printed documents

The text of a document is JSON in either layout, and says what the document is
(`isDocument_print`). A layout may put white space where it likes, since white space stands between
tokens alone; all that counts of a layout is `Layout.OnlyBlank`.
-/

namespace ShellDoc

open JsonText

mutual

/-- What the text of a document says. -/
def Json.said : Json → JsonText.Value
  | .string content => .string content
  | .number value => .number (.ofNat value)
  | .array elements => .array elements.said
  | .object members => .object members.said

/-- What the texts of elements say. -/
def JsonElements.said : JsonElements → JsonText.Values
  | .nil => .nil
  | .cons head tail => .cons head.said tail.said

/-- What the texts of members say. -/
def JsonMembers.said : JsonMembers → JsonText.Members
  | .nil => .nil
  | .cons key value rest => .cons key value.said rest.said

end

namespace Json

/-! ## Strings -/

theorem hexDigit?_hexDigit : ∀ n < 16, hexDigit? (hexDigit n) = some n := by
  decide

/-- A control character is spelled by its number. -/
theorem codeUnit?_control {n : Nat} (h : n < 0x20) :
    codeUnit? ['0', '0', hexDigit (n / 16), hexDigit (n % 16)] = some n := by
  have hhigh := hexDigit?_hexDigit (n / 16) (by omega)
  have hlow := hexDigit?_hexDigit (n % 16) (by omega)
  have hzero : hexDigit? '0' = some 0 := rfl
  simp only [codeUnit?, hzero, hhigh, hlow, Option.bind_eq_bind, Option.bind_some, Option.pure_def]
  congr 1
  omega

theorem spellsChar_escapeChar (c : Char) : SpellsChar (escapeChar c) c := by
  unfold escapeChar
  split_ifs with hquote hbackslash hfeed hreturn htab hback hform hcontrol
  · subst hquote
    exact .letter rfl
  · subst hbackslash
    exact .letter rfl
  · subst hfeed
    exact .letter rfl
  · subst hreturn
    exact .letter rfl
  · subst htab
    exact .letter rfl
  · subst hback
    exact .letter rfl
  · subst hform
    exact .letter rfl
  · exact .unit (codeUnit?_control hcontrol)
  · exact .plain (Nat.le_of_not_lt hcontrol) hquote hbackslash

theorem spellsString_escape (content : Text) :
    SpellsString (content.flatMap escapeChar) content := by
  induction content with
  | nil => exact .nil
  | cons c cs ih => exact .cons (spellsChar_escapeChar c) ih

theorem spells_quote (content : Text) : Token.Spells (.value (.string content)) (quote content) :=
  .string (spellsString_escape content)

/-! ## Numbers -/

/-- A whole number other than zero does not start with the digit zero. -/
theorem head?_toDigits_ne {n : Nat} (h : n ≠ 0) : (Nat.toDigits 10 n).head? ≠ some '0' := by
  induction n using Nat.strongRecOn with
  | ind n ih =>
    by_cases hsmall : n < 10
    · have hdigit : ∀ k < 10, k ≠ 0 → (Nat.toDigits 10 k).head? ≠ some '0' := by decide
      exact hdigit n hsmall h
    · have hmore : n / 10 ≠ 0 := by omega
      have hshorter := ih (n / 10) (by omega) hmore
      rw [Nat.toDigits_of_base_le (by decide) (by omega),
        List.head?_append_of_ne_nil _ Nat.toDigits_ne_nil]
      exact hshorter

theorem isNumber_ofNat (n : Nat) : IsNumber (.ofNat n) := by
  have hdigits : IsDigits (Nat.toDigits 10 n) :=
    ⟨Nat.toDigits_ne_nil, fun _ hc => Nat.isDigit_of_mem_toDigits (by decide) (by decide) hc⟩
  have hwhole : IsWhole (Nat.toDigits 10 n) := by
    by_cases h : n = 0
    · exact .inl (h ▸ rfl)
    · exact .inr ⟨hdigits, head?_toDigits_ne h⟩
  exact ⟨[], _, [], [], .inl rfl, hwhole, .inl rfl, .inl rfl, (List.append_nil _).symm⟩

/-! ## Documents -/

/-- Whether a layout adds white space alone. -/
structure Layout.OnlyBlank (layout : Layout) : Prop where
  /-- What starts a line is white space. -/
  lineBreak : ∀ depth, IsBlank (layout.lineBreak depth)
  /-- A key and its value are separated by the colon and white space. -/
  colon : ∃ blank, IsBlank blank ∧ layout.colon = Mark.colon.char :: blank

theorem Layout.onlyBlank_compact : Layout.compact.OnlyBlank where
  lineBreak _ := List.forall_mem_nil _
  colon := ⟨[], List.forall_mem_nil _, rfl⟩

theorem Layout.onlyBlank_indented : Layout.indented.OnlyBlank where
  lineBreak _ := List.forall_mem_cons.mpr
    ⟨rfl, fun _ hc => (List.eq_of_mem_replicate hc).symm ▸ rfl⟩
  colon := ⟨[' '], List.forall_mem_singleton.mpr rfl, rfl⟩

/-- The colon behind a key, with the white space that the layout puts there. -/
theorem Layout.OnlyBlank.written_colon {layout : Layout} (h : layout.OnlyBlank)
    {tokens : List Token} {t : Text} (ht : Written tokens t) :
    Written (.mark .colon :: tokens) (layout.colon ++ t) := by
  obtain ⟨blank, hblank, hcolon⟩ := h.colon
  rw [hcolon]
  exact .mark .colon (ht.blank_append hblank)

/-- The mark that ends an array or an object, on a line of its own. -/
theorem Layout.OnlyBlank.written_close {layout : Layout} (h : layout.OnlyBlank) (depth : Nat)
    (m : Mark) : Written [.mark m] (layout.lineBreak depth ++ [m.char]) :=
  (Token.Spells.mark m).written.blank_append (h.lineBreak depth)

section

variable {layout : Layout} (hlayout : layout.OnlyBlank)
include hlayout

mutual

/-- The text of a document is written from the tokens of what it says. -/
theorem written_printAt : ∀ (document : Json) (depth : Nat),
    Written document.said.tokens (printAt layout depth document)
  | .string content, _ => (spells_quote content).written
  | .number value, _ => (Token.Spells.number (isNumber_ofNat value)).written
  | .array .nil, _ => .mark .openArray (.mark .closeArray (.done (List.forall_mem_nil _)))
  | .array (.cons head tail), depth => by
    have hhead := written_printAt head (depth + 1)
    have htail := written_printElements tail (depth + 1)
    have hbehind := hhead.append (htail.append (hlayout.written_close depth .closeArray))
    have h := Written.mark .openArray (hbehind.blank_append (hlayout.lineBreak (depth + 1)))
    simp only [printAt, List.cons_append, List.append_assoc]
    exact h
  | .object .nil, _ => .mark .openObject (.mark .closeObject (.done (List.forall_mem_nil _)))
  | .object (.cons key value rest), depth => by
    have hvalue := written_printAt value (depth + 1)
    have hrest := written_printMembers rest (depth + 1)
    have hbehind := hvalue.append (hrest.append (hlayout.written_close depth .closeObject))
    have hmember := Written.cons (spells_quote key) (hlayout.written_colon hbehind)
    have h := Written.mark .openObject (hmember.blank_append (hlayout.lineBreak (depth + 1)))
    simp only [printAt, List.cons_append, List.append_assoc]
    exact h

theorem written_printElements : ∀ (elements : JsonElements) (depth : Nat),
    Written elements.said.tokens (printElements layout depth elements)
  | .nil, _ => .done (List.forall_mem_nil _)
  | .cons head tail, depth => by
    have hhead := written_printAt head depth
    have hbehind := hhead.append (written_printElements tail depth)
    have h := Written.mark .comma (hbehind.blank_append (hlayout.lineBreak depth))
    simp only [printElements, List.cons_append, List.append_assoc]
    exact h

theorem written_printMembers : ∀ (members : JsonMembers) (depth : Nat),
    Written members.said.tokens (printMembers layout depth members)
  | .nil, _ => .done (List.forall_mem_nil _)
  | .cons key value rest, depth => by
    have hvalue := written_printAt value depth
    have hbehind := hvalue.append (written_printMembers rest depth)
    have hmember := Written.cons (spells_quote key) (hlayout.written_colon hbehind)
    have h := Written.mark .comma (hmember.blank_append (hlayout.lineBreak depth))
    simp only [printMembers, List.cons_append, List.append_assoc]
    exact h

end

/-- The text of a document is JSON and says what the document is. -/
theorem isDocument_print (document : Json) : IsDocument document.said (document.print layout) :=
  written_printAt hlayout document 0

end

end Json

end ShellDoc
