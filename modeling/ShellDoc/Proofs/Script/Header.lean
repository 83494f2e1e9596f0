import ShellDoc.Script.Header
import ShellDoc.Proofs.Text
import Mathlib.Data.Option.Basic

/-!
# The grammar of headers

The reader of headers goes over a line once and takes the longest run of characters at every step.
Here the two forms of a header are said by the parts that a line is put together from
(`KeywordForm`, `PlainForm`), with no word on how to find them. The reader accepts exactly these
forms, and no line has two names or both forms (`headerName?_forms`).

That the longest run is always the right one is due to the characters: the one behind a name is a
blank, a parenthesis or a brace and never one of a name, and the one behind blanks is never a blank.
For the same reason the keyword with blanks and a name behind it is not the name of a plain header,
for which a parenthesis would have to follow instead of the name.
-/

namespace ShellDoc.Script

/-- A name of a function: not empty, and made of the characters of names. -/
def IsName (name : Text) : Prop :=
  name ≠ [] ∧ ∀ c ∈ name, isNameChar c = true

/-- Any number of blanks, none included. -/
def IsBlanks (t : Text) : Prop :=
  ∀ c ∈ t, isBlank c = true

/-- A pair of parentheses with nothing but blanks in it. -/
def IsParentheses (t : Text) : Prop :=
  ∃ inside, IsBlanks inside ∧ t = '(' :: (inside ++ [')'])

/-- Blanks, a brace, and anything. -/
def OpensPlainly (t : Text) : Prop :=
  ∃ blanks rest, IsBlanks blanks ∧ t = blanks ++ '{' :: rest

/-- Blanks, parentheses, and again blanks, a brace, and anything. -/
def OpensWithParentheses (t : Text) : Prop :=
  ∃ blanks parentheses rest, IsBlanks blanks ∧ IsParentheses parentheses ∧ OpensPlainly rest ∧
    t = blanks ++ (parentheses ++ rest)

/-- The form `function NAME [()] {`, with at least one blank behind the keyword. -/
def KeywordForm (name line : Text) : Prop :=
  IsName name ∧ ∃ gap behind, gap ≠ [] ∧ IsBlanks gap ∧
    (OpensPlainly behind ∨ OpensWithParentheses behind) ∧
    line = keyword ++ (gap ++ (name ++ behind))

/-- The form `NAME () {`. -/
def PlainForm (name line : Text) : Prop :=
  IsName name ∧ ∃ behind, OpensWithParentheses behind ∧ line = name ++ behind

variable {name line t : Text}

/-! ## Characters -/

theorem isBlank_of_isNameChar {c : Char} (h : isNameChar c = true) : isBlank c = false := by
  by_contra hblank
  rw [Bool.not_eq_false, isBlank, Bool.or_eq_true, beq_iff_eq, beq_iff_eq] at hblank
  rcases hblank with rfl | rfl
  · exact absurd h (by decide)
  · exact absurd h (by decide)

theorem isNameChar_of_isBlank {c : Char} (h : isBlank c = true) : isNameChar c = false := by
  rw [← Bool.not_eq_true]
  intro hname
  rw [isBlank_of_isNameChar hname] at h
  exact Bool.noConfusion h

theorem IsName.head?_not_isBlank (h : IsName name) (behind : Text) :
    ∀ c ∈ (name ++ behind).head?, isBlank c = false := by
  intro c hc
  rw [List.head?_append_of_ne_nil name h.1] at hc
  exact isBlank_of_isNameChar (h.2 c (List.mem_of_head? hc))

/-- What follows blanks, or stands first, decides whether a name could go on. -/
theorem IsBlanks.head?_not_isNameChar {blanks rest : Text} (h : IsBlanks blanks)
    (hrest : ∀ c ∈ rest.head?, isNameChar c = false) :
    ∀ c ∈ (blanks ++ rest).head?, isNameChar c = false := by
  cases blanks with
  | nil => exact hrest
  | cons d blanks =>
    intro c hc
    rw [← Option.some.inj hc]
    exact isNameChar_of_isBlank (h d List.mem_cons_self)

theorem isName_takeWhile {t : Text} (h : t.takeWhile isNameChar ≠ []) :
    IsName (t.takeWhile isNameChar) :=
  ⟨h, fun c hc => List.all_eq_true.mp List.all_takeWhile c hc⟩

/-! ## Blanks -/

theorem skipBlanks_append {blanks rest : Text} (h : IsBlanks blanks)
    (hrest : ∀ c ∈ rest.head?, isBlank c = false) : skipBlanks (blanks ++ rest) = rest :=
  Text.dropWhile_append h hrest

/-- A text is blanks and what is left when blanks are skipped. -/
theorem exists_blanks_append (t : Text) :
    ∃ blanks, IsBlanks blanks ∧ t = blanks ++ skipBlanks t := by
  refine ⟨t.takeWhile isBlank, fun c hc => ?_, List.takeWhile_append_dropWhile.symm⟩
  exact List.all_eq_true.mp List.all_takeWhile c hc

/-! ## Behind the name -/

theorem opensBody_iff : opensBody t = true ↔ OpensPlainly t := by
  rw [opensBody, beq_iff_eq]
  constructor
  · intro h
    obtain ⟨rest, hrest⟩ := List.head?_eq_some_iff.mp h
    obtain ⟨blanks, hblanks, hsplit⟩ := exists_blanks_append t
    rw [hrest] at hsplit
    exact ⟨blanks, rest, hblanks, hsplit⟩
  · rintro ⟨blanks, rest, hblanks, rfl⟩
    rw [skipBlanks_append hblanks (by simp [isBlank])]
    rfl

theorem afterParentheses?_eq_some_iff {rest : Text} :
    afterParentheses? t = some rest ↔
      ∃ parentheses, IsParentheses parentheses ∧ t = parentheses ++ rest := by
  constructor
  · intro h
    unfold afterParentheses? at h
    split at h
    next inside =>
      split at h
      next _ hclose =>
        cases h
        obtain ⟨blanks, hblanks, hsplit⟩ := exists_blanks_append inside
        refine ⟨'(' :: (blanks ++ [')']), ⟨blanks, hblanks, rfl⟩, ?_⟩
        rw [hsplit, hclose]
        simp only [List.cons_append, List.append_assoc, List.nil_append]
      next => cases h
    next => cases h
  · rintro ⟨_, ⟨inside, hinside, rfl⟩, rfl⟩
    have hskip : skipBlanks (inside ++ ')' :: rest) = ')' :: rest :=
      skipBlanks_append hinside (by simp [isBlank])
    simp only [List.cons_append, List.append_assoc, List.nil_append, afterParentheses?, hskip]

theorem opensWithParentheses_iff :
    OpensWithParentheses t ↔
      ∃ rest, afterParentheses? (skipBlanks t) = some rest ∧ opensBody rest = true := by
  constructor
  · rintro ⟨blanks, parentheses, rest, hblanks, hparentheses, hrest, rfl⟩
    refine ⟨rest, ?_, opensBody_iff.mpr hrest⟩
    rw [skipBlanks_append hblanks, afterParentheses?_eq_some_iff]
    · exact ⟨parentheses, hparentheses, rfl⟩
    · obtain ⟨inside, _, rfl⟩ := hparentheses
      simp [isBlank]
  · rintro ⟨rest, hafter, hopens⟩
    obtain ⟨parentheses, hparentheses, hskip⟩ := afterParentheses?_eq_some_iff.mp hafter
    obtain ⟨blanks, hblanks, hsplit⟩ := exists_blanks_append t
    rw [hskip] at hsplit
    exact ⟨blanks, parentheses, rest, hblanks, hparentheses, opensBody_iff.mp hopens, hsplit⟩

/-- Behind the name of a header with the keyword, the parentheses may be left out. If they are
there, no brace stands in their place. -/
theorem opensBody_getD_iff :
    opensBody ((afterParentheses? (skipBlanks t)).getD (skipBlanks t)) = true ↔
      OpensPlainly t ∨ OpensWithParentheses t := by
  cases hafter : afterParentheses? (skipBlanks t) with
  | none =>
    have hnone : ¬ OpensWithParentheses t := by
      rw [opensWithParentheses_iff, hafter]
      rintro ⟨rest, hrest, _⟩
      cases hrest
    have hskip : opensBody (skipBlanks t) = opensBody t := by
      rw [opensBody, opensBody, skipBlanks, skipBlanks, List.dropWhile_idempotent]
    rw [Option.getD_none, hskip, opensBody_iff, or_iff_left hnone]
  | some rest =>
    have hnone : ¬ OpensPlainly t := by
      rintro ⟨blanks, inside, hblanks, rfl⟩
      rw [skipBlanks_append hblanks (by simp [isBlank])] at hafter
      cases hafter
    rw [Option.getD_some, or_iff_right hnone, opensWithParentheses_iff, hafter]
    simp only [Option.some.injEq, exists_eq_left']

theorem OpensPlainly.head?_not_isNameChar (h : OpensPlainly t) :
    ∀ c ∈ t.head?, isNameChar c = false := by
  obtain ⟨blanks, rest, hblanks, rfl⟩ := h
  apply hblanks.head?_not_isNameChar
  intro c hc
  rw [← Option.some.inj hc]
  decide

theorem OpensWithParentheses.head?_not_isNameChar (h : OpensWithParentheses t) :
    ∀ c ∈ t.head?, isNameChar c = false := by
  obtain ⟨blanks, _, rest, hblanks, ⟨inside, _, rfl⟩, _, rfl⟩ := h
  apply hblanks.head?_not_isNameChar
  intro c hc
  rw [← Option.some.inj hc]
  decide

/-! ## The two forms -/

theorem keywordHeader?_eq_some_iff : keywordHeader? line = some name ↔ KeywordForm name line := by
  simp only [keywordHeader?, Option.bind_eq_bind, Option.bind_eq_some_iff, Option.guard_eq_some',
    Option.pure_def, Option.some.injEq]
  constructor
  · rintro ⟨start, hkeyword, _, ⟨hgap, hname⟩, _, hopens, rfl⟩
    obtain ⟨gap, hblanks, hsplit⟩ := exists_blanks_append start
    refine ⟨isName_takeWhile hname, gap, (skipBlanks start).dropWhile isNameChar, ?_, hblanks,
      opensBody_getD_iff.mp hopens, ?_⟩
    · rintro rfl
      exact hgap hsplit.symm
    · rw [List.takeWhile_append_dropWhile, ← hsplit]
      exact (List.append_eq_of_isPrefixOf?_eq_some hkeyword).symm
  · rintro ⟨hname, gap, behind, hgap, hblanks, hbehind, rfl⟩
    have hskip : skipBlanks (gap ++ (name ++ behind)) = name ++ behind :=
      skipBlanks_append hblanks (hname.head?_not_isBlank behind)
    have hend : ∀ c ∈ behind.head?, isNameChar c = false :=
      hbehind.elim (·.head?_not_isNameChar) (·.head?_not_isNameChar)
    have htake : (name ++ behind).takeWhile isNameChar = name := Text.takeWhile_append hname.2 hend
    have hdrop : (name ++ behind).dropWhile isNameChar = behind :=
      Text.dropWhile_append hname.2 hend
    refine ⟨gap ++ (name ++ behind), List.isPrefixOf?_eq_some_iff_append_eq.mpr rfl, ?_⟩
    rw [hskip, htake, hdrop]
    refine ⟨(), ⟨fun heq => hgap ?_, hname.1⟩, (), opensBody_getD_iff.mpr hbehind, rfl⟩
    exact List.self_eq_append_left.mp heq

theorem plainHeader?_eq_some_iff : plainHeader? line = some name ↔ PlainForm name line := by
  simp only [plainHeader?, Option.bind_eq_bind, Option.bind_eq_some_iff, Option.guard_eq_some',
    Option.pure_def, Option.some.injEq]
  constructor
  · rintro ⟨_, hname, rest, hafter, _, hopens, rfl⟩
    refine ⟨isName_takeWhile hname, line.dropWhile isNameChar, ?_,
      List.takeWhile_append_dropWhile.symm⟩
    exact opensWithParentheses_iff.mpr ⟨rest, hafter, hopens⟩
  · rintro ⟨hname, behind, hbehind, rfl⟩
    obtain ⟨rest, hafter, hopens⟩ := opensWithParentheses_iff.mp hbehind
    have htake : (name ++ behind).takeWhile isNameChar = name :=
      Text.takeWhile_append hname.2 hbehind.head?_not_isNameChar
    have hdrop : (name ++ behind).dropWhile isNameChar = behind :=
      Text.dropWhile_append hname.2 hbehind.head?_not_isNameChar
    rw [htake, hdrop]
    exact ⟨(), hname.1, rest, hafter, (), hopens, rfl⟩

/-- **No line has both forms.** The name of the plain form would be the keyword, with a parenthesis
behind its blanks and not a name. -/
theorem not_plainForm_of_keywordForm {name' : Text} (h : KeywordForm name line) :
    ¬ PlainForm name' line := by
  rintro ⟨hname', behind', hbehind', hline⟩
  obtain ⟨hname, gap, behind, hgap, hblanks, _, rfl⟩ := h
  have hkeyword : ∀ c ∈ keyword, isNameChar c = true := List.all_eq_true.mp rfl
  have hend : ∀ c ∈ (gap ++ (name ++ behind)).head?, isNameChar c = false := by
    intro c hc
    rw [List.head?_append_of_ne_nil gap hgap] at hc
    exact isNameChar_of_isBlank (hblanks c (List.mem_of_head? hc))
  have hrest : behind' = gap ++ (name ++ behind) := by
    have hdrop := congrArg (List.dropWhile isNameChar) hline
    rw [Text.dropWhile_append hkeyword hend,
      Text.dropWhile_append hname'.2 hbehind'.head?_not_isNameChar] at hdrop
    exact hdrop.symm
  obtain ⟨rest, hafter, _⟩ := opensWithParentheses_iff.mp hbehind'
  rw [hrest, skipBlanks_append hblanks (hname.head?_not_isBlank behind)] at hafter
  obtain ⟨_, ⟨inside, _, rfl⟩, hparenthesis⟩ := afterParentheses?_eq_some_iff.mp hafter
  obtain ⟨c, tail, rfl⟩ := List.exists_cons_of_ne_nil hname.1
  have hc : isNameChar c = true := hname.2 c List.mem_cons_self
  rw [(List.cons.inj hparenthesis).1] at hc
  exact absurd hc (by decide)

theorem headerName?_eq_some_iff :
    headerName? line = some name ↔ KeywordForm name line ∨ PlainForm name line := by
  rw [headerName?, Option.orElse_eq_orElse, Option.orElse_eq_or, Option.or_eq_some_iff,
    keywordHeader?_eq_some_iff, plainHeader?_eq_some_iff]
  refine or_congr_right ⟨And.right, fun hplain => ⟨?_, hplain⟩⟩
  refine Option.eq_none_iff_forall_ne_some.mpr fun name' hname' => ?_
  exact not_plainForm_of_keywordForm (keywordHeader?_eq_some_iff.mp hname') hplain

theorem isName_of_headerName? (h : headerName? line = some name) : IsName name := by
  rcases headerName?_eq_some_iff.mp h with hform | hform
  · exact hform.1
  · exact hform.1

/-- **The grammar of headers.** The reader gives a name exactly when the line has one of the two
forms with it. No line has a form with two names, and none has both forms. -/
theorem headerName?_forms :
    (∀ line name, headerName? line = some name ↔ KeywordForm name line ∨ PlainForm name line) ∧
    (∀ line name name', KeywordForm name line ∨ PlainForm name line →
      KeywordForm name' line ∨ PlainForm name' line → name = name') ∧
    ∀ line name name', ¬ (KeywordForm name line ∧ PlainForm name' line) := by
  refine ⟨fun line name => headerName?_eq_some_iff, ?_, ?_⟩
  · intro line name name' hname hname'
    rw [← headerName?_eq_some_iff] at hname hname'
    exact Option.some.inj (hname.symm.trans hname')
  · rintro line name name' ⟨hkeyword, hplain⟩
    exact not_plainForm_of_keywordForm hkeyword hplain

/-- A header of a function that is named like the keyword, with a body behind the brace. -/
theorem headerName?_forms_keywordTwice :
    let line := "function\t function () \x7b x".toList
    KeywordForm keyword line ∧ headerName? line = some keyword ∧
      (∀ name, KeywordForm name line ∨ PlainForm name line → name = keyword) ∧
      ∀ name, ¬ PlainForm name line := by
  intro line
  have hname : IsName keyword := ⟨List.cons_ne_nil _ _, List.all_eq_true.mp rfl⟩
  have hopens : OpensWithParentheses " () \x7b x".toList :=
    ⟨[' '], ['(', ')'], " \x7b x".toList, List.all_eq_true.mp rfl,
      ⟨[], List.all_eq_true.mp rfl, rfl⟩, ⟨[' '], " x".toList, List.all_eq_true.mp rfl, rfl⟩, rfl⟩
  have hform : KeywordForm keyword line :=
    ⟨hname, ['\t', ' '], " () \x7b x".toList, List.cons_ne_nil _ _, List.all_eq_true.mp rfl,
      .inr hopens, rfl⟩
  obtain ⟨haccepts, hunique, hone⟩ := headerName?_forms
  refine ⟨hform, (haccepts line keyword).mpr (.inl hform), ?_, ?_⟩
  · intro name hname'
    exact hunique line name keyword hname' (.inl hform)
  · intro name hplain
    exact hone line keyword name ⟨hform, hplain⟩

end ShellDoc.Script
