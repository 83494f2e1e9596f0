import ShellDoc.Text

/-!
# The grammar of JSON texts

Which texts are JSON, and what each of them says, after the standard and without regard to the
documents that this library writes.

A JSON text is a sequence of tokens with white space between them. So the grammar has two layers:
`Value.tokens` gives the tokens of a value, and `Written` says which texts spell a sequence of
tokens. A text may spell a token in more than one way only where the standard leaves a choice, which
is in strings: a character stands for itself or is escaped, by a letter or by its number.

Values keep all that a text says apart from its layout: the order of members, members with the same
key, and the spelling of a number. A number of a character that lies in the range of surrogates
spells a character in pairs alone.
-/

namespace ShellDoc.JsonText

/-! ## Values -/

mutual

/-- What a JSON text says. A number is kept as it is spelled. -/
inductive Value where
  | null
  | boolean (value : Bool)
  | number (literal : Text)
  | string (content : Text)
  | array (elements : Values)
  | object (members : Members)

/-- The elements of an array in order. -/
inductive Values where
  | nil
  | cons (head : Value) (tail : Values)

/-- The members of an object in order. -/
inductive Members where
  | nil
  | cons (key : Text) (value : Value) (rest : Members)

end

/-! ## Tokens -/

/-- A mark that gives a text its structure. -/
inductive Mark where
  | openArray
  | closeArray
  | openObject
  | closeObject
  | comma
  | colon
deriving DecidableEq, Repr

/-- The character of a mark. -/
def Mark.char : Mark → Char
  | .openArray => '['
  | .closeArray => ']'
  | .openObject => '{'
  | .closeObject => '}'
  | .comma => ','
  | .colon => ':'

/-- A token: a mark or a value. In a text only values without parts are tokens. -/
inductive Token where
  | mark (m : Mark)
  | value (v : Value)

mutual

/-- The tokens of a value. -/
def Value.tokens : Value → List Token
  | .array .nil => [.mark .openArray, .mark .closeArray]
  | .array (.cons head tail) =>
    .mark .openArray :: (head.tokens ++ (tail.tokens ++ [.mark .closeArray]))
  | .object .nil => [.mark .openObject, .mark .closeObject]
  | .object (.cons key value rest) =>
    .mark .openObject :: .value (.string key) :: .mark .colon ::
      (value.tokens ++ (rest.tokens ++ [.mark .closeObject]))
  | .null => [.value .null]
  | .boolean b => [.value (.boolean b)]
  | .number literal => [.value (.number literal)]
  | .string content => [.value (.string content)]

/-- The tokens of further elements, each behind a comma. -/
def Values.tokens : Values → List Token
  | .nil => []
  | .cons head tail => .mark .comma :: (head.tokens ++ tail.tokens)

/-- The tokens of further members, each behind a comma. -/
def Members.tokens : Members → List Token
  | .nil => []
  | .cons key value rest =>
    .mark .comma :: .value (.string key) :: .mark .colon :: (value.tokens ++ rest.tokens)

end

/-! ## Numbers -/

/-- One or more digits. -/
def IsDigits (t : Text) : Prop :=
  t ≠ [] ∧ ∀ c ∈ t, c.isDigit = true

/-- The part of a number in front of the point: digits, the first of them no zero unless it stands
alone. -/
def IsWhole (t : Text) : Prop :=
  t = ['0'] ∨ (IsDigits t ∧ t.head? ≠ some '0')

/-- The part of a number from the point on. -/
def IsFraction (t : Text) : Prop :=
  t = [] ∨ ∃ digits, IsDigits digits ∧ t = '.' :: digits

/-- The exponent of a number. -/
def IsExponent (t : Text) : Prop :=
  t = [] ∨ ∃ letter sign digits, (letter = 'e' ∨ letter = 'E') ∧
    (sign = [] ∨ sign = ['+'] ∨ sign = ['-']) ∧ IsDigits digits ∧ t = letter :: (sign ++ digits)

/-- The spelling of a number. -/
def IsNumber (t : Text) : Prop :=
  ∃ sign whole fraction exponent, (sign = [] ∨ sign = ['-']) ∧ IsWhole whole ∧
    IsFraction fraction ∧ IsExponent exponent ∧ t = sign ++ (whole ++ (fraction ++ exponent))

/-! ## Strings -/

/-- The characters that a letter behind a backslash stands for. -/
def shortEscapes : List (Char × Char) :=
  [('"', '"'), ('\\', '\\'), ('/', '/'), ('b', '\x08'), ('f', '\x0c'), ('n', '\n'), ('r', '\r'),
    ('t', '\t')]

/-- The value of a hexadecimal digit, in lower or upper case. -/
def hexDigit? (c : Char) : Option Nat :=
  if c.isDigit then some (c.toNat - '0'.toNat)
  else if 'a' ≤ c ∧ c ≤ 'f' then some (c.toNat - 'a'.toNat + 10)
  else if 'A' ≤ c ∧ c ≤ 'F' then some (c.toNat - 'A'.toNat + 10)
  else none

/-- The number that four hexadecimal digits spell. -/
def codeUnit? : Text → Option Nat
  | [a, b, c, d] => do
    return 0x1000 * (← hexDigit? a) + 0x100 * (← hexDigit? b) + 0x10 * (← hexDigit? c) +
      (← hexDigit? d)
  | _ => none

/-- Whether a number is one of the first of a pair that stands for one character. -/
def isHighSurrogate (unit : Nat) : Bool :=
  0xD800 ≤ unit && unit < 0xDC00

/-- Whether a number is one of the second of such a pair. -/
def isLowSurrogate (unit : Nat) : Bool :=
  0xDC00 ≤ unit && unit < 0xE000

/-- The number of the character that a pair stands for. -/
def pairCode (high low : Nat) : Nat :=
  0x10000 + 0x400 * (high - 0xD800) + (low - 0xDC00)

/-- The ways to spell a character in a string. -/
inductive SpellsChar : Text → Char → Prop
  | plain {c : Char} : 0x20 ≤ c.toNat → c ≠ '"' → c ≠ '\\' → SpellsChar [c] c
  | letter {letter c : Char} : shortEscapes.lookup letter = some c → SpellsChar ['\\', letter] c
  | unit {digits : Text} {c : Char} :
      codeUnit? digits = some c.toNat → SpellsChar ('\\' :: 'u' :: digits) c
  | pair {digits digits' : Text} {high low : Nat} {c : Char} :
      codeUnit? digits = some high → isHighSurrogate high = true →
      codeUnit? digits' = some low → isLowSurrogate low = true → c.toNat = pairCode high low →
      SpellsChar ('\\' :: 'u' :: (digits ++ '\\' :: 'u' :: digits')) c

/-- The ways to spell a text between quotes. -/
inductive SpellsString : Text → Text → Prop
  | nil : SpellsString [] []
  | cons {s t content : Text} {c : Char} :
      SpellsChar s c → SpellsString t content → SpellsString (s ++ t) (c :: content)

/-! ## Texts -/

/-- The ways to spell a token. -/
inductive Token.Spells : Token → Text → Prop
  | mark (m : Mark) : Spells (.mark m) [m.char]
  | null : Spells (.value .null) "null".toList
  | true : Spells (.value (.boolean true)) "true".toList
  | false : Spells (.value (.boolean false)) "false".toList
  | number {literal : Text} : IsNumber literal → Spells (.value (.number literal)) literal
  | string {inside content : Text} :
      SpellsString inside content → Spells (.value (.string content)) ('"' :: (inside ++ ['"']))

/-- Whether a character is white space between tokens. -/
def isBlank (c : Char) : Bool :=
  c == ' ' || c == '\t' || c == '\n' || c == '\r'

/-- White space between tokens, or nothing. -/
def IsBlank (t : Text) : Prop :=
  ∀ c ∈ t, isBlank c = true

/-- The ways to write tokens one after another. -/
inductive Written : List Token → Text → Prop
  | done {blank : Text} : IsBlank blank → Written [] blank
  | token {blank s t : Text} {first : Token} {rest : List Token} :
      IsBlank blank → first.Spells s → Written rest t → Written (first :: rest) (blank ++ (s ++ t))

/-- Whether a text is JSON that says a value. -/
def IsDocument (v : Value) (t : Text) : Prop :=
  Written v.tokens t

/-- Whether a text is JSON. -/
def IsWellFormed (t : Text) : Prop :=
  ∃ v, IsDocument v t

/-! ## Writing in pieces -/

theorem Written.blank_append {blank t : Text} {tokens : List Token} (hblank : IsBlank blank)
    (h : Written tokens t) : Written tokens (blank ++ t) := by
  cases h with
  | done h => exact .done (List.forall_mem_append.mpr ⟨hblank, h⟩)
  | token h hfirst hrest =>
    rw [← List.append_assoc]
    exact .token (List.forall_mem_append.mpr ⟨hblank, h⟩) hfirst hrest

theorem Written.append {s t : Text} {xs ys : List Token} (hs : Written xs s) (ht : Written ys t) :
    Written (xs ++ ys) (s ++ t) := by
  induction hs with
  | done hblank => exact ht.blank_append hblank
  | token hblank hfirst _ ih =>
    rw [List.cons_append, List.append_assoc, List.append_assoc]
    exact .token hblank hfirst ih

/-- A token in front of others needs no white space. -/
theorem Written.cons {s t : Text} {first : Token} {rest : List Token} (hs : first.Spells s)
    (ht : Written rest t) : Written (first :: rest) (s ++ t) :=
  .token (List.forall_mem_nil _) hs ht

/-- A token alone. -/
theorem Token.Spells.written {s : Text} {token : Token} (h : token.Spells s) :
    Written [token] s := by
  have hdone : Written [] [] := .done (List.forall_mem_nil _)
  have hwritten := Written.cons h hdone
  rwa [List.append_nil] at hwritten

/-- White space behind a text adds nothing to what it says. -/
theorem IsDocument.append_blank {v : Value} {t blank : Text} (h : IsDocument v t)
    (hblank : IsBlank blank) : IsDocument v (t ++ blank) := by
  have hwritten := Written.append h (.done hblank)
  rwa [List.append_nil] at hwritten

theorem Written.mark {t : Text} {rest : List Token} (m : Mark) (ht : Written rest t) :
    Written (.mark m :: rest) (m.char :: t) :=
  .cons (.mark m) ht

end ShellDoc.JsonText
