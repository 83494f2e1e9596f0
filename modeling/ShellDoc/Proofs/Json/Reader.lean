import Mathlib.Data.List.Basic
import Mathlib.Data.List.Chain
import ShellDoc.Proofs.Json.Grammar
import ShellDoc.Proofs.Text

/-!
# A reader of JSON texts

A reader in two steps: `lex` cuts a text into its tokens, and `shift` builds values from tokens on a
stack, where a closing bracket gathers what stands above its opening one.

The reader gives every JSON text the value that it says (`read?_of_isDocument`). So no text says two
values (`IsDocument.unique`), although many texts say the same one.
-/

namespace ShellDoc.JsonText

/-! ## Strings -/

/-- Reads a number of a character. -/
def readUnit? : Text → Option (Nat × Text)
  | '\\' :: 'u' :: a :: b :: c :: d :: rest => (codeUnit? [a, b, c, d]).map (·, rest)
  | _ => none

/-- Reads a character that is spelled by its number, or by the two numbers of a pair. -/
def readNumbered? (t : Text) : Option (Char × Text) :=
  match readUnit? t with
  | none => none
  | some (unit, rest) =>
    if isHighSurrogate unit then
      match readUnit? rest with
      | none => none
      | some (low, rest) =>
        if isLowSurrogate low then some (Char.ofNat (pairCode unit low), rest) else none
    else if unit.isValidChar then some (Char.ofNat unit, rest)
    else none

/-- Reads one character of a string. -/
def readChar? : Text → Option (Char × Text)
  | [] => none
  | ['\\'] => none
  | '\\' :: letter :: rest =>
    if letter = 'u' then readNumbered? ('\\' :: letter :: rest)
    else (shortEscapes.lookup letter).map (·, rest)
  | c :: rest => if 0x20 ≤ c.toNat then some (c, rest) else none

theorem length_readUnit?_lt {t rest : Text} {unit : Nat} (h : readUnit? t = some (unit, rest)) :
    rest.length < t.length := by
  unfold readUnit? at h
  split at h
  · obtain ⟨_, _, heq⟩ := Option.map_eq_some_iff.mp h
    cases heq
    simp only [List.length_cons]
    omega
  · cases h

theorem length_readNumbered?_lt {t rest : Text} {c : Char} (h : readNumbered? t = some (c, rest)) :
    rest.length < t.length := by
  unfold readNumbered? at h
  split at h
  · cases h
  next hunit =>
    have hshort := length_readUnit?_lt hunit
    split at h
    · split at h
      · cases h
      next hlow =>
        split at h
        · obtain ⟨-, rfl⟩ := Prod.mk.inj (Option.some.inj h)
          exact Nat.lt_trans (length_readUnit?_lt hlow) hshort
        · cases h
    · split at h
      · obtain ⟨-, rfl⟩ := Prod.mk.inj (Option.some.inj h)
        exact hshort
      · cases h

theorem length_readChar?_lt {t rest : Text} {c : Char} (h : readChar? t = some (c, rest)) :
    rest.length < t.length := by
  unfold readChar? at h
  split at h
  · cases h
  · cases h
  · split at h
    · exact length_readNumbered?_lt h
    · obtain ⟨_, _, heq⟩ := Option.map_eq_some_iff.mp h
      cases heq
      simp only [List.length_cons]
      omega
  · split at h
    · cases h
      exact Nat.lt_succ_self _
    · cases h

/-- Reads a string behind its first quote: its characters, and what follows its last quote. -/
def readString? (t : Text) : Option (Text × Text) :=
  if t.head? = some '"' then some ([], t.tail)
  else
    match _h : readChar? t with
    | none => none
    | some (c, rest) => (readString? rest).map fun (content, behind) => (c :: content, behind)
termination_by t.length
decreasing_by exact length_readChar?_lt _h

theorem length_readString?_lt {t rest content : Text}
    (h : readString? t = some (content, rest)) : rest.length < t.length := by
  fun_induction readString? t generalizing content with
  | case1 t hquote =>
    obtain ⟨behind, rfl⟩ := List.head?_eq_some_iff.mp hquote
    cases h
    exact Nat.lt_succ_self _
  | case2 => cases h
  | case3 t _ c behind hc ih =>
    obtain ⟨⟨content', rest'⟩, hrest, heq⟩ := Option.map_eq_some_iff.mp h
    cases heq
    exact Nat.lt_trans (ih hrest) (length_readChar?_lt hc)

theorem isHighSurrogate_toNat (c : Char) : isHighSurrogate c.toNat = false := by
  have hvalid : c.toNat < 0xD800 ∨ (0xDFFF < c.toNat ∧ c.toNat < 0x110000) := c.valid
  simp only [isHighSurrogate, Bool.and_eq_false_iff, decide_eq_false_iff_not]
  omega

theorem readUnit?_append {digits : Text} {unit : Nat} (h : codeUnit? digits = some unit)
    (rest : Text) : readUnit? ('\\' :: 'u' :: (digits ++ rest)) = some (unit, rest) := by
  unfold codeUnit? at h
  split at h
  next a b c d =>
    show (codeUnit? [a, b, c, d]).map (·, rest) = some (unit, rest)
    rw [codeUnit?, h]
    rfl
  next => cases h

/-- Every way to spell a character is read. -/
theorem readChar?_append {s : Text} {c : Char} (h : SpellsChar s c) (rest : Text) :
    readChar? (s ++ rest) = some (c, rest) := by
  cases h with
  | plain hspace _ hbackslash =>
    rw [List.singleton_append, readChar?, if_pos hspace]
    · rintro rfl
      exact absurd rfl hbackslash
    · rintro letter behind rfl
      exact absurd rfl hbackslash
  | @letter letter _ hletter =>
    have hu : letter ≠ 'u' := by
      rintro rfl
      cases hletter
    show readChar? ('\\' :: letter :: rest) = some (c, rest)
    rw [readChar?, if_neg hu, hletter]
    rfl
  | @unit digits _ hdigits =>
    show readChar? ('\\' :: 'u' :: (digits ++ rest)) = some (c, rest)
    rw [readChar?, if_pos rfl, readNumbered?, readUnit?_append hdigits]
    simp only [isHighSurrogate_toNat, Bool.false_eq_true, ↓reduceIte, Char.ofNat_toNat]
    exact if_pos c.valid
  | @pair digits digits' high low _ hhigh hisHigh hlow hisLow hc =>
    have hsplit : '\\' :: 'u' :: (digits ++ '\\' :: 'u' :: digits') ++ rest =
        '\\' :: 'u' :: (digits ++ ('\\' :: 'u' :: (digits' ++ rest))) := by
      simp only [List.cons_append, List.append_assoc]
    rw [hsplit, readChar?, if_pos rfl, readNumbered?, readUnit?_append hhigh]
    simp only [hisHigh, ↓reduceIte, readUnit?_append hlow, hisLow, ← hc, Char.ofNat_toNat]

theorem head?_of_spellsChar {s : Text} {c : Char} (h : SpellsChar s c) :
    ∃ first rest, s = first :: rest ∧ first ≠ '"' := by
  cases h with
  | plain _ hquote _ => exact ⟨c, [], rfl, hquote⟩
  | letter => exact ⟨_, _, rfl, by decide⟩
  | unit => exact ⟨_, _, rfl, by decide⟩
  | pair => exact ⟨_, _, rfl, by decide⟩

/-- Every way to spell a text between quotes is read, up to the quote behind it. -/
theorem readString?_append {inside content : Text} (h : SpellsString inside content)
    (rest : Text) : readString? (inside ++ '"' :: rest) = some (content, rest) := by
  induction h with
  | nil => rw [List.nil_append, readString?, if_pos List.head?_cons, List.tail_cons]
  | @cons s t content c hchar _ ih =>
    obtain ⟨first, behind, hs, hfirst⟩ := head?_of_spellsChar hchar
    have hquote : (s ++ (t ++ '"' :: rest)).head? ≠ some '"' := by
      rw [hs, List.cons_append, List.head?_cons]
      exact fun heq => hfirst (Option.some.inj heq)
    rw [List.append_assoc, readString?, if_neg hquote, readChar?_append hchar]
    simp only [ih, Option.map_some]

/-! ## Numbers -/

/-- What follows one or more digits. -/
def dropDigits? : Text → Option Text
  | [] => none
  | c :: rest => if c.isDigit then some (rest.dropWhile Char.isDigit) else none

/-- What follows a sign, if there is one. -/
def dropSign (signs : List Char) : Text → Text
  | [] => []
  | c :: rest => if c ∈ signs then rest else c :: rest

/-- What follows the part of a number in front of the point. -/
def dropWhole? : Text → Option Text
  | [] => none
  | c :: rest => if c = '0' then some rest else dropDigits? (c :: rest)

/-- What follows the part of a number from the point on. -/
def dropFraction? : Text → Option Text
  | [] => some []
  | c :: rest => if c = '.' then dropDigits? rest else some (c :: rest)

/-- Whether a text is an exponent, or nothing. -/
def isExponent : Text → Bool
  | [] => true
  | c :: rest => (c == 'e' || c == 'E') && dropDigits? (dropSign ['+', '-'] rest) == some []

/-- Whether a text is a number. -/
def isNumber (t : Text) : Bool :=
  ((dropWhole? (dropSign ['-'] t)).bind dropFraction?).any isExponent

/-- Whether a character may stand in a number. -/
def isNumberChar (c : Char) : Bool :=
  c.isDigit || c == '+' || c == '-' || c == '.' || c == 'e' || c == 'E'

theorem dropDigits?_append {digits rest : Text} (h : IsDigits digits)
    (hrest : ∀ c ∈ rest.head?, c.isDigit = false) : dropDigits? (digits ++ rest) = some rest := by
  obtain ⟨hne, hdigits⟩ := h
  cases digits with
  | nil => exact absurd rfl hne
  | cons d ds =>
    obtain ⟨hd, hds⟩ := List.forall_mem_cons.mp hdigits
    rw [List.cons_append, dropDigits?, if_pos hd, Text.dropWhile_append hds hrest]

theorem dropSign_of_not_mem {signs : List Char} {t : Text} (h : ∀ c ∈ t.head?, c ∉ signs) :
    dropSign signs t = t := by
  cases t with
  | nil => rfl
  | cons c rest => exact if_neg (h c rfl)

/-- No sign is a digit. -/
theorem dropSign_of_isDigits {signs : List Char} (hsigns : ∀ c ∈ signs, c.isDigit = false)
    {digits : Text} (h : IsDigits digits) (rest : Text) :
    dropSign signs (digits ++ rest) = digits ++ rest := by
  refine dropSign_of_not_mem fun c hc hmem => ?_
  rw [List.head?_append_of_ne_nil digits h.1] at hc
  have hdigit := h.2 c (List.mem_of_head? hc)
  rw [hsigns c hmem] at hdigit
  exact Bool.noConfusion hdigit

theorem IsWhole.isDigits {whole : Text} (h : IsWhole whole) : IsDigits whole := by
  rcases h with rfl | ⟨hdigits, _⟩
  · exact ⟨List.cons_ne_nil _ _, List.forall_mem_singleton.mpr rfl⟩
  · exact hdigits

theorem dropWhole?_append {whole rest : Text} (h : IsWhole whole)
    (hrest : ∀ c ∈ rest.head?, c.isDigit = false) : dropWhole? (whole ++ rest) = some rest := by
  rcases h with rfl | ⟨hdigits, hzero⟩
  · rfl
  · have hdrop := dropDigits?_append hdigits hrest
    cases whole with
    | nil => exact absurd rfl hdigits.1
    | cons d ds =>
      have hd : d ≠ '0' := fun heq => hzero (heq ▸ rfl)
      rw [List.cons_append] at hdrop ⊢
      rw [dropWhole?, if_neg hd, hdrop]

theorem dropFraction?_append {fraction rest : Text} (h : IsFraction fraction)
    (hrest : ∀ c ∈ rest.head?, c.isDigit = false ∧ c ≠ '.') :
    dropFraction? (fraction ++ rest) = some rest := by
  rcases h with rfl | ⟨digits, hdigits, rfl⟩
  · cases rest with
    | nil => rfl
    | cons c behind => exact if_neg (hrest c rfl).2
  · exact dropDigits?_append hdigits fun c hc => (hrest c hc).1

theorem isExponent_of {t : Text} (h : IsExponent t) : isExponent t = true := by
  rcases h with rfl | ⟨letter, sign, digits, hletter, hsign, hdigits, rfl⟩
  · rfl
  · have hdrop : dropDigits? digits = some [] := by
      have hall : dropDigits? (digits ++ []) = some [] :=
        dropDigits?_append hdigits fun c hc => nomatch hc
      rwa [List.append_nil] at hall
    have hplain : dropSign ['+', '-'] (sign ++ digits) = digits := by
      rcases hsign with rfl | rfl | rfl
      · have hall : dropSign ['+', '-'] (digits ++ []) = digits ++ [] :=
          dropSign_of_isDigits
            (List.forall_mem_cons.mpr ⟨rfl, List.forall_mem_singleton.mpr rfl⟩) hdigits []
        rwa [List.append_nil] at hall
      · rfl
      · rfl
    rw [isExponent, hplain, hdrop]
    rcases hletter with rfl | rfl
    · rfl
    · rfl

theorem IsNumber.ne_nil {t : Text} (h : IsNumber t) : t ≠ [] := by
  obtain ⟨sign, whole, fraction, exponent, _, hwhole, _, _, rfl⟩ := h
  intro hnil
  have hbehind := (List.append_eq_nil_iff.mp hnil).2
  exact hwhole.isDigits.1 (List.append_eq_nil_iff.mp hbehind).1

/-- Every number is accepted. -/
theorem isNumber_of {t : Text} (h : IsNumber t) : isNumber t = true := by
  obtain ⟨sign, whole, fraction, exponent, hsign, hwhole, hfraction, hexponent, rfl⟩ := h
  have hexponentHead : ∀ c ∈ exponent.head?, c.isDigit = false ∧ c ≠ '.' := by
    rcases hexponent with rfl | ⟨letter, _, _, hletter, _, _, rfl⟩
    · exact fun c hc => nomatch hc
    · intro c hc
      cases hc
      rcases hletter with rfl | rfl
      · decide
      · decide
  have hbehind : ∀ c ∈ (fraction ++ exponent).head?, c.isDigit = false := by
    rcases hfraction with rfl | ⟨digits, _, rfl⟩
    · exact fun c hc => (hexponentHead c hc).1
    · intro c hc
      cases hc
      decide
  have hplain : dropSign ['-'] (sign ++ (whole ++ (fraction ++ exponent))) =
      whole ++ (fraction ++ exponent) := by
    rcases hsign with rfl | rfl
    · exact dropSign_of_isDigits (List.forall_mem_singleton.mpr rfl) hwhole.isDigits _
    · rfl
  rw [isNumber, hplain, dropWhole?_append hwhole hbehind, Option.bind_some,
    dropFraction?_append hfraction hexponentHead]
  exact isExponent_of hexponent

theorem isNumberChar_of_mem {t : Text} (h : IsNumber t) : ∀ c ∈ t, isNumberChar c = true := by
  obtain ⟨sign, whole, fraction, exponent, hsign, hwhole, hfraction, hexponent, rfl⟩ := h
  have hdigits : ∀ {digits : Text}, IsDigits digits → ∀ c ∈ digits, isNumberChar c = true := by
    intro digits h c hc
    rw [isNumberChar, h.2 c hc]
    rfl
  simp only [List.forall_mem_append]
  refine ⟨?_, hdigits hwhole.isDigits, ?_, ?_⟩
  · rcases hsign with rfl | rfl
    · exact List.forall_mem_nil _
    · exact List.forall_mem_singleton.mpr rfl
  · rcases hfraction with rfl | ⟨digits, h, rfl⟩
    · exact List.forall_mem_nil _
    · exact List.forall_mem_cons.mpr ⟨rfl, hdigits h⟩
  · rcases hexponent with rfl | ⟨letter, sign, digits, hletter, hsign, h, rfl⟩
    · exact List.forall_mem_nil _
    · refine List.forall_mem_cons.mpr ⟨?_, List.forall_mem_append.mpr ⟨?_, hdigits h⟩⟩
      · rcases hletter with rfl | rfl
        · rfl
        · rfl
      · rcases hsign with rfl | rfl | rfl
        · exact List.forall_mem_nil _
        · exact List.forall_mem_singleton.mpr rfl
        · exact List.forall_mem_singleton.mpr rfl

/-! ## Tokens -/

/-- The mark that a character is. -/
def Mark.ofChar? (c : Char) : Option Mark :=
  [openArray, closeArray, openObject, closeObject, comma, colon].find? (·.char == c)

/-- Whether a character may stand in a word: a name of a value, or a number. -/
def isWordChar (c : Char) : Bool :=
  !(isBlank c || (Mark.ofChar? c).isSome || c == '"')

/-- The value that a word is. -/
def wordValue? (word : Text) : Option Value :=
  if word = "null".toList then some .null
  else if word = "true".toList then some (.boolean true)
  else if word = "false".toList then some (.boolean false)
  else if isNumber word then some (.number word)
  else none

theorem Mark.ofChar?_char (m : Mark) : Mark.ofChar? m.char = some m := by
  cases m <;> rfl

theorem Mark.char_of_ofChar? {c : Char} {m : Mark} (h : Mark.ofChar? c = some m) : m.char = c := by
  rw [Mark.ofChar?] at h
  have hfound := List.find?_some h
  exact eq_of_beq hfound

theorem isBlank_char (m : Mark) : isBlank m.char = false := by
  cases m <;> rfl

theorem isWordChar_of_isBlank {c : Char} (h : isBlank c = true) : isWordChar c = false := by
  rw [isWordChar, h]
  rfl

theorem isWordChar_char (m : Mark) : isWordChar m.char = false := by
  cases m <;> rfl

/-- What is no part of a word: white space, the marks and the quote. None of it stands in a
number. -/
theorem isWordChar_of_isNumberChar {c : Char} (h : isNumberChar c = true) :
    isWordChar c = true := by
  by_contra hword
  have hother : (isBlank c = true ∨ (Mark.ofChar? c).isSome = true) ∨ c = '"' := by
    rw [isWordChar, Bool.not_eq_true, Bool.not_eq_false', Bool.or_eq_true, Bool.or_eq_true] at hword
    exact hword.imp_right eq_of_beq
  rcases hother with (hblank | hmark) | rfl
  · have hchar : ((c = ' ' ∨ c = '\t') ∨ c = '\n') ∨ c = '\r' := by
      simpa [isBlank] using hblank
    rcases hchar with ((rfl | rfl) | rfl) | rfl
    all_goals exact absurd h (by decide)
  · obtain ⟨m, hm⟩ := Option.isSome_iff_exists.mp hmark
    obtain rfl := Mark.char_of_ofChar? hm
    cases m
    all_goals exact absurd h (by decide)
  · exact absurd h (by decide)

theorem wordValue?_number {literal : Text} (h : IsNumber literal) :
    wordValue? literal = some (.number literal) := by
  have hchars := isNumberChar_of_mem h
  have hname : ∀ word : Text, word.any (! isNumberChar ·) = true → literal ≠ word := by
    rintro word hword rfl
    obtain ⟨c, hc, hother⟩ := List.any_eq_true.mp hword
    rw [hchars c hc] at hother
    exact Bool.noConfusion hother
  rw [wordValue?, if_neg (hname _ (by decide)), if_neg (hname _ (by decide)),
    if_neg (hname _ (by decide)), if_pos (isNumber_of h)]

/-- Cuts a text into its tokens. -/
def lex (t : Text) : Option (List Token) :=
  match t with
  | [] => some []
  | c :: rest =>
    if isBlank c then lex rest
    else
      match Mark.ofChar? c with
      | some m => (.mark m :: ·) <$> lex rest
      | none =>
        if c = '"' then
          match _h : readString? rest with
          | none => none
          | some (content, behind) => (.value (.string content) :: ·) <$> lex behind
        else
          match wordValue? (c :: rest.takeWhile isWordChar) with
          | none => none
          | some v => (.value v :: ·) <$> lex (rest.dropWhile isWordChar)
termination_by t.length
decreasing_by
  · exact Nat.lt_succ_self _
  · exact Nat.lt_succ_self _
  · exact Nat.lt_succ_of_lt (length_readString?_lt _h)
  · exact Nat.lt_succ_of_le (List.dropWhile_sublist _).length_le

theorem lex_cons_of_isBlank {c : Char} (h : isBlank c = true) (rest : Text) :
    lex (c :: rest) = lex rest := by
  rw [lex, if_pos h]

/-- White space in front of a text adds no token. -/
theorem lex_append_of_isBlank {blank : Text} (h : IsBlank blank) (t : Text) :
    lex (blank ++ t) = lex t := by
  induction blank with
  | nil => rfl
  | cons c cs ih =>
    obtain ⟨hc, hcs⟩ := List.forall_mem_cons.mp h
    rw [List.cons_append, lex_cons_of_isBlank hc, ih hcs]

theorem lex_mark (m : Mark) (rest : Text) : lex (m.char :: rest) = (.mark m :: ·) <$> lex rest := by
  rw [lex, if_neg (by rw [isBlank_char]; decide), Mark.ofChar?_char]

theorem lex_string {inside content : Text} (h : SpellsString inside content) (rest : Text) :
    lex ('"' :: (inside ++ '"' :: rest)) = (.value (.string content) :: ·) <$> lex rest := by
  have hread := readString?_append h rest
  rw [lex, if_neg (by decide), show Mark.ofChar? '"' = none from rfl]
  simp only [↓reduceIte]
  split
  next hnone =>
    rw [hread] at hnone
    cases hnone
  next hsome =>
    rw [hread] at hsome
    cases hsome
    rfl

/-- A word ends where a character follows that is no part of one. -/
theorem lex_word {word : Text} {v : Value} (hne : word ≠ [])
    (hword : ∀ c ∈ word, isWordChar c = true) (hv : wordValue? word = some v) {rest : Text}
    (hrest : ∀ c ∈ rest.head?, isWordChar c = false) :
    lex (word ++ rest) = (.value v :: ·) <$> lex rest := by
  cases word with
  | nil => exact absurd rfl hne
  | cons c cs =>
    obtain ⟨hc, hcs⟩ := List.forall_mem_cons.mp hword
    have hother : (isBlank c = false ∧ Mark.ofChar? c = none) ∧ c ≠ '"' := by
      simpa [isWordChar] using hc
    obtain ⟨⟨hblank, hmark⟩, hquote⟩ := hother
    rw [List.cons_append, lex, if_neg (by rw [hblank]; decide), hmark]
    simp only [if_neg hquote, Text.takeWhile_append hcs hrest, Text.dropWhile_append hcs hrest, hv]

/-! ## Sequences of tokens -/

/-- Whether a token is a mark. -/
def Token.isMark : Token → Bool
  | .mark _ => true
  | .value _ => false

/-- Whether no two values stand side by side, as in the tokens of every value. A text may spell such
tokens without white space between them. -/
def Separated (tokens : List Token) : Prop :=
  tokens.IsChain fun first second => first.isMark = true ∨ second.isMark = true

/-- Whether tokens do not start with a value. -/
def StartsWithMark (tokens : List Token) : Prop :=
  ∀ token ∈ tokens.head?, token.isMark = true

theorem Separated.mark {tokens : List Token} (m : Mark) (h : Separated tokens) :
    Separated (.mark m :: tokens) :=
  List.IsChain.cons h fun _ _ => .inl rfl

theorem Separated.value {tokens : List Token} (v : Value) (h : Separated tokens)
    (hstart : StartsWithMark tokens) : Separated (.value v :: tokens) :=
  List.IsChain.cons h fun token htoken => .inr (hstart token htoken)

theorem Separated.append {xs ys : List Token} (hx : Separated xs) (hy : Separated ys)
    (hstart : StartsWithMark ys) : Separated (xs ++ ys) :=
  List.isChain_append.mpr ⟨hx, hy, fun _ _ token htoken => .inr (hstart token htoken)⟩

theorem startsWithMark_mark (m : Mark) (tokens : List Token) :
    StartsWithMark (.mark m :: tokens) := by
  rintro token htoken
  cases htoken
  rfl

theorem StartsWithMark.append {xs ys : List Token} (hx : StartsWithMark xs)
    (hy : StartsWithMark ys) : StartsWithMark (xs ++ ys) := by
  cases xs with
  | nil => exact hy
  | cons => exact hx

theorem Values.startsWithMark : ∀ vs : Values, StartsWithMark vs.tokens
  | .nil => fun _ h => nomatch h
  | .cons .. => startsWithMark_mark _ _

theorem Members.startsWithMark : ∀ ms : Members, StartsWithMark ms.tokens
  | .nil => fun _ h => nomatch h
  | .cons .. => startsWithMark_mark _ _

mutual

/-- The tokens of a value are separated. -/
theorem Value.separated : ∀ v : Value, Separated v.tokens
  | .null | .boolean _ | .number _ | .string _ => List.isChain_singleton _
  | .array .nil => Separated.mark _ (List.isChain_singleton _)
  | .array (.cons head tail) =>
    Separated.mark _ <| head.separated.append
      (tail.separated.append (List.isChain_singleton _) (startsWithMark_mark _ _))
      (tail.startsWithMark.append (startsWithMark_mark _ _))
  | .object .nil => Separated.mark _ (List.isChain_singleton _)
  | .object (.cons _ value rest) =>
    Separated.mark _ <| Separated.value _ (Separated.mark _ <| value.separated.append
      (rest.separated.append (List.isChain_singleton _) (startsWithMark_mark _ _))
      (rest.startsWithMark.append (startsWithMark_mark _ _))) (startsWithMark_mark _ _)

theorem Values.separated : ∀ vs : Values, Separated vs.tokens
  | .nil => List.isChain_nil
  | .cons head tail => Separated.mark _ (head.separated.append tail.separated tail.startsWithMark)

theorem Members.separated : ∀ ms : Members, Separated ms.tokens
  | .nil => List.isChain_nil
  | .cons _ value rest =>
    Separated.mark _ <| Separated.value _ (Separated.mark _ <|
      value.separated.append rest.separated rest.startsWithMark) (startsWithMark_mark _ _)

end

/-- A text whose tokens do not start with a value does not start with a word. -/
theorem Written.isWordChar_head? {tokens : List Token} {t : Text} (h : Written tokens t)
    (hstart : StartsWithMark tokens) : ∀ c ∈ t.head?, isWordChar c = false := by
  intro c hc
  cases h with
  | done hblank => exact isWordChar_of_isBlank (hblank c (List.mem_of_head? hc))
  | @token blank s behind first rest hblank hfirst _ =>
    cases blank with
    | cons b bs =>
      obtain rfl : b = c := Option.some.inj hc
      exact isWordChar_of_isBlank (hblank b List.mem_cons_self)
    | nil =>
      cases hfirst with
      | mark m =>
        obtain rfl : m.char = c := Option.some.inj hc
        exact isWordChar_char m
      | _ => exact Bool.noConfusion (hstart _ rfl)

/-- A text is cut into the tokens that it is written from. -/
theorem lex_of_written {tokens : List Token} {t : Text} (h : Written tokens t)
    (hseparated : Separated tokens) : lex t = some tokens := by
  induction h with
  | @done blank hblank =>
    have hall := lex_append_of_isBlank hblank []
    rwa [List.append_nil, lex] at hall
  | @token blank s t first rest hblank hfirst hrest ih =>
    have hlex := ih hseparated.tail
    rw [lex_append_of_isBlank hblank]
    have hstop : first.isMark = false → ∀ c ∈ t.head?, isWordChar c = false := by
      intro hvalue
      refine hrest.isWordChar_head? fun token htoken => ?_
      rcases hseparated.rel_head? htoken with hmark | hmark
      · rw [hvalue] at hmark
        exact Bool.noConfusion hmark
      · exact hmark
    cases hfirst with
    | mark m => rw [List.singleton_append, lex_mark, hlex, Option.map_eq_map, Option.map_some]
    | null =>
      rw [lex_word (by decide) (List.all_eq_true.mp rfl) rfl (hstop rfl), hlex]
      rfl
    | true =>
      rw [lex_word (by decide) (List.all_eq_true.mp rfl) rfl (hstop rfl), hlex]
      rfl
    | false =>
      rw [lex_word (by decide) (List.all_eq_true.mp rfl) rfl (hstop rfl), hlex]
      rfl
    | number h =>
      have hword : ∀ c ∈ s, isWordChar c = true := fun c hc =>
        isWordChar_of_isNumberChar (isNumberChar_of_mem h c hc)
      rw [lex_word h.ne_nil hword (wordValue?_number h) (hstop rfl), hlex]
      rfl
    | string h =>
      rw [List.cons_append, List.append_assoc, List.singleton_append, lex_string h, hlex]
      rfl

/-! ## Values -/

/-- Gathers the elements of an array from the top of the stack, the last of them first. -/
def closeArray : Values → List Token → Option (List Token)
  | elements, .value v :: .mark .openArray :: below =>
    some (.value (.array (.cons v elements)) :: below)
  | elements, .value v :: .mark .comma :: below => closeArray (.cons v elements) below
  | .nil, .mark .openArray :: below => some (.value (.array .nil) :: below)
  | _, _ => none

/-- Gathers the members of an object from the top of the stack, the last of them first. -/
def closeObject : Members → List Token → Option (List Token)
  | members, .value v :: .mark .colon :: .value (.string key) :: .mark .openObject :: below =>
    some (.value (.object (.cons key v members)) :: below)
  | members, .value v :: .mark .colon :: .value (.string key) :: .mark .comma :: below =>
    closeObject (.cons key v members) below
  | .nil, .mark .openObject :: below => some (.value (.object .nil) :: below)
  | _, _ => none

/-- Puts a token on the stack, where the mark that ends an array or an object makes one value of
it. -/
def shift (stack : List Token) : Token → Option (List Token)
  | .mark .closeArray => closeArray .nil stack
  | .mark .closeObject => closeObject .nil stack
  | token => some (token :: stack)

/-- The value that a text says, if it is JSON. -/
def read? (t : Text) : Option Value :=
  match (lex t).bind fun tokens => tokens.foldlM shift [] with
  | some [.value v] => some v
  | _ => none

/-- The stack on which further elements have been put. -/
def Values.onStack : Values → List Token → List Token
  | .nil, stack => stack
  | .cons head tail, stack => tail.onStack (.value head :: .mark .comma :: stack)

/-- The stack on which further members have been put. -/
def Members.onStack : Members → List Token → List Token
  | .nil, stack => stack
  | .cons key value rest, stack =>
    rest.onStack (.value value :: .mark .colon :: .value (.string key) :: .mark .comma :: stack)

/-- The elements of two arrays in order. -/
def Values.append : Values → Values → Values
  | .nil, others => others
  | .cons head tail, others => .cons head (tail.append others)

/-- The members of two objects in order. -/
def Members.append : Members → Members → Members
  | .nil, others => others
  | .cons key value rest, others => .cons key value (rest.append others)

theorem Values.append_nil : ∀ vs : Values, vs.append .nil = vs
  | .nil => rfl
  | .cons head tail => congrArg (Values.cons head) tail.append_nil

theorem Members.append_nil : ∀ ms : Members, ms.append .nil = ms
  | .nil => rfl
  | .cons key value rest => congrArg (Members.cons key value) rest.append_nil

/-- Further elements are gathered in front of those that are gathered already. -/
theorem closeArray_onStack : ∀ (vs gathered : Values) (v : Value) (below : List Token),
    closeArray gathered (vs.onStack (.value v :: below)) =
      closeArray (vs.append gathered) (.value v :: below)
  | .nil, _, _, _ => rfl
  | .cons head tail, gathered, v, below => by
    rw [Values.onStack, closeArray_onStack tail, closeArray, Values.append]

/-- Further members are gathered in front of those that are gathered already. -/
theorem closeObject_onStack : ∀ (ms gathered : Members) (key : Text) (v : Value)
    (below : List Token),
    closeObject gathered
        (ms.onStack (.value v :: .mark .colon :: .value (.string key) :: below)) =
      closeObject (ms.append gathered)
        (.value v :: .mark .colon :: .value (.string key) :: below)
  | .nil, _, _, _, _ => rfl
  | .cons _ _ rest, gathered, key, v, below => by
    rw [Members.onStack, closeObject_onStack rest, closeObject, Members.append]

/-- Putting tokens on the stack one after another. -/
theorem foldlM_shift_append {xs ys : List Token} {stack stack' : List Token}
    (h : xs.foldlM shift stack = some stack') :
    (xs ++ ys).foldlM shift stack = ys.foldlM shift stack' := by
  rw [List.foldlM_append, h]
  rfl

mutual

/-- The tokens of a value leave the value on the stack. -/
theorem Value.foldlM_shift : ∀ (v : Value) (stack : List Token),
    v.tokens.foldlM shift stack = some (.value v :: stack)
  | .null, _ | .boolean _, _ | .number _, _ | .string _, _ => rfl
  | .array .nil, _ => rfl
  | .array (.cons head tail), stack => by
    show (head.tokens ++ (tail.tokens ++ [Token.mark .closeArray])).foldlM shift
      (.mark .openArray :: stack) = _
    have hclose := closeArray_onStack tail .nil head (.mark .openArray :: stack)
    rw [Values.append_nil, closeArray] at hclose
    rw [foldlM_shift_append (head.foldlM_shift _), foldlM_shift_append (tail.foldlM_shift _),
      List.foldlM_cons, shift, hclose]
    rfl
  | .object .nil, _ => rfl
  | .object (.cons key value rest), stack => by
    show (value.tokens ++ (rest.tokens ++ [Token.mark .closeObject])).foldlM shift
      (.mark .colon :: .value (.string key) :: .mark .openObject :: stack) = _
    have hclose := closeObject_onStack rest .nil key value (.mark .openObject :: stack)
    rw [Members.append_nil, closeObject] at hclose
    rw [foldlM_shift_append (value.foldlM_shift _), foldlM_shift_append (rest.foldlM_shift _),
      List.foldlM_cons, shift, hclose]
    rfl

theorem Values.foldlM_shift : ∀ (vs : Values) (stack : List Token),
    vs.tokens.foldlM shift stack = some (vs.onStack stack)
  | .nil, _ => rfl
  | .cons head tail, stack => by
    show (head.tokens ++ tail.tokens).foldlM shift (.mark .comma :: stack) = _
    rw [foldlM_shift_append (head.foldlM_shift _), tail.foldlM_shift, Values.onStack]

theorem Members.foldlM_shift : ∀ (ms : Members) (stack : List Token),
    ms.tokens.foldlM shift stack = some (ms.onStack stack)
  | .nil, _ => rfl
  | .cons key value rest, stack => by
    show (value.tokens ++ rest.tokens).foldlM shift
      (.mark .colon :: .value (.string key) :: .mark .comma :: stack) = _
    rw [foldlM_shift_append (value.foldlM_shift _), rest.foldlM_shift, Members.onStack]

end

/-- The reader gives every JSON text the value that it says. -/
theorem read?_of_isDocument {v : Value} {t : Text} (h : IsDocument v t) : read? t = some v := by
  rw [read?, lex_of_written h v.separated, Option.bind_some, v.foldlM_shift]

/-- No text says two values. -/
theorem IsDocument.unique {v w : Value} {t : Text} (hv : IsDocument v t) (hw : IsDocument w t) :
    v = w :=
  Option.some.inj ((read?_of_isDocument hv).symm.trans (read?_of_isDocument hw))

end ShellDoc.JsonText
