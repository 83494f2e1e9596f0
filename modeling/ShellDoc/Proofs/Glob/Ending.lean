import Mathlib.Data.List.Infix
import ShellDoc.Glob.Pattern
import ShellDoc.Proofs.Except
import ShellDoc.Proofs.Text

/-!
# Patterns with a plain ending

Characters at the end of a pattern stand for themselves if none of them is special: no wildcard can
reach them, and neither can a class, which a bracket would have to end behind them. So a pattern with
a plain ending finds only names that end in the same way (`exists_last_part`).
-/

namespace ShellDoc.Glob

/-- Whether the characters of a text stand for themselves at the end of a pattern. -/
structure IsPlainEnding (ending : Text) : Prop where
  ne_nil : ending ≠ []
  noSlash : '/' ∉ ending
  noMark : '?' ∉ ending
  noStar : '*' ∉ ending
  noOpening : '[' ∉ ending
  noClosing : ']' ∉ ending

variable {ending t rest name : Text} {c : Char}

/-! ## Endings of texts -/

theorem suffix_of_suffix_cons (hc : c ∉ ending) (h : ending <:+ c :: rest) : ending <:+ rest := by
  rcases List.suffix_cons_iff.mp h with rfl | h
  · exact absurd List.mem_cons_self hc
  · exact h

/-- An ending stands behind a character that it does not have. -/
theorem suffix_of_suffix_append_cons (hc : c ∉ ending) {start : Text}
    (h : ending <:+ start ++ c :: rest) : ending <:+ rest := by
  rcases List.suffix_or_suffix_of_suffix h (List.suffix_append start (c :: rest)) with h | h
  · exact suffix_of_suffix_cons hc h
  · exact absurd (h.subset List.mem_cons_self) hc

theorem suffix_dropWhile {p : Char → Bool} (hp : ∀ c, p c = true → c ∉ ending)
    (h : ending <:+ t) : ending <:+ t.dropWhile p := by
  induction t with
  | nil => exact h
  | cons c rest ih =>
    rw [List.dropWhile_cons]
    split
    next hc => exact ih (suffix_of_suffix_cons (hp c hc) h)
    next => exact h

/-! ## Tokens -/

theorem exists_of_splitClass? {inside behind : Text} (h : splitClass? t = some (inside, behind)) :
    ∃ start, t = start ++ ']' :: behind := by
  cases t with
  | nil => cases h
  | cons c rest =>
    rw [splitClass?] at h
    split at h
    next => cases h
    next d tail hdrop =>
      cases h
      obtain rfl : d = ']' := by
        have hstop := List.head?_dropWhile_not (· != ']') rest
        rw [hdrop] at hstop
        simpa using hstop
      refine ⟨c :: rest.takeWhile (· != ']'), ?_⟩
      rw [List.cons_append, ← hdrop, List.takeWhile_append_dropWhile]

/-- A class ends with a bracket, and is one token. -/
theorem exists_of_readClass? {token : Token} {behind : Text}
    (h : readClass? t = some (token, behind)) :
    token ≠ .anyDepth ∧ ∃ start, t = start ++ ']' :: behind := by
  unfold readClass? at h
  split at h
  next inside =>
    obtain ⟨⟨members, behind'⟩, hsplit, hpair⟩ := Option.map_eq_some_iff.mp h
    obtain ⟨rfl, rfl⟩ := Prod.mk.inj hpair
    obtain ⟨start, hstart⟩ := exists_of_splitClass? hsplit
    exact ⟨nofun, '!' :: start, by rw [hstart, List.cons_append]⟩
  next =>
    obtain ⟨⟨members, behind'⟩, hsplit, hpair⟩ := Option.map_eq_some_iff.mp h
    obtain ⟨rfl, rfl⟩ := Prod.mk.inj hpair
    exact ⟨nofun, exists_of_splitClass? hsplit⟩

/-- In front of a plain ending that no slash separates, stars stand for a sequence. -/
theorem eq_of_readStars (hplain : IsPlainEnding ending) (hending : ending <:+ t) (hslash : '/' ∉ t)
    {position stars : Nat} {before? : Option Char} {token : Token} {behind : Text}
    (h : readStars position before? stars t = .ok (token, behind)) :
    token = .anySequence ∧ behind = t := by
  unfold readStars at h
  split at h
  next =>
    obtain ⟨rfl, rfl⟩ := Prod.mk.inj (Except.ok.inj h)
    exact ⟨rfl, rfl⟩
  next =>
    split at h
    next => cases h
    next =>
      split at h
      next => cases h
      next =>
        split at h
        next => exact absurd (List.suffix_nil.mp hending) hplain.ne_nil
        next => exact absurd List.mem_cons_self hslash
        next => cases h

/-- Characters without special ones stand for themselves, and what is behind them is read on. -/
theorem exists_readTokens_append (hplain : ∀ c ∈ t, c ≠ '?' ∧ c ≠ '*' ∧ c ≠ '[') (length : Nat)
    (before? : Option Char) (rest : Text) :
    ∃ before'?, readTokens length before? (t ++ rest) =
      (t.map .char ++ ·) <$> readTokens length before'? rest := by
  induction t generalizing before? with
  | nil =>
    refine ⟨before?, ?_⟩
    cases hread : readTokens length before? rest with
    | error cause => rw [List.nil_append, hread]; rfl
    | ok tokens => rw [List.nil_append, hread]; rfl
  | cons c inner ih =>
    obtain ⟨⟨hmark, hstar, hopening⟩, hrest⟩ := List.forall_mem_cons.mp hplain
    obtain ⟨before'?, hread⟩ := ih hrest (some c)
    refine ⟨before'?, ?_⟩
    rw [List.cons_append, readTokens, hread]
    · cases readTokens length before'? rest with
      | error cause => rfl
      | ok tokens => rfl
    · exact hmark
    · exact hstar
    · exact hopening

/-- Text without special characters stands for itself. -/
theorem readTokens_of_plain (hplain : ∀ c ∈ t, c ≠ '?' ∧ c ≠ '*' ∧ c ≠ '[') (length : Nat)
    (before? : Option Char) : readTokens length before? t = .ok (t.map .char) := by
  obtain ⟨before'?, hread⟩ := exists_readTokens_append hplain length before? []
  rw [List.append_nil, readTokens] at hread
  rw [hread]
  exact congrArg Except.ok (List.append_nil _)

/-- A pattern is not valid if its first special character opens a class that is not closed. -/
theorem ofText_of_readClass? (hplain : ∀ c ∈ t, c ≠ '?' ∧ c ≠ '*' ∧ c ≠ '[')
    (hclass : readClass? rest = none) :
    Pattern.ofText (t ++ '[' :: rest) = .error ⟨t.length, .brokenClass⟩ := by
  have hopening : ∀ length before?, readTokens length before? ('[' :: rest) =
      .error ⟨length - (rest.length + 1), .brokenClass⟩ := by
    intro length before?
    rw [readTokens]
    split
    next => rfl
    next hsome =>
      rw [hclass] at hsome
      cases hsome
  obtain ⟨before?, hread⟩ :=
    exists_readTokens_append hplain (t ++ '[' :: rest).length none ('[' :: rest)
  have hlength : (t ++ '[' :: rest).length - (rest.length + 1) = t.length := by
    rw [List.length_append, List.length_cons, Nat.add_sub_cancel]
  rw [hopening, hlength] at hread
  rw [Pattern.ofText, tokens, hread]
  rfl

/-- Whether tokens end with the characters of a text, and depth stands nowhere in front of them. -/
def EndsPlainly (ending : Text) (tokens : List Token) : Prop :=
  ∃ start, tokens = start ++ ending.map .char ∧ Token.anyDepth ∉ start

theorem EndsPlainly.cons {tokens : List Token} (h : EndsPlainly ending tokens) {token : Token}
    (htoken : token ≠ .anyDepth) : EndsPlainly ending (token :: tokens) := by
  obtain ⟨start, rfl, hstart⟩ := h
  refine ⟨token :: start, rfl, fun hmem => ?_⟩
  rcases List.mem_cons.mp hmem with hfirst | hrest
  · exact htoken hfirst.symm
  · exact hstart hrest

/-- The tokens of a text with a plain ending end with the characters of the ending. -/
theorem endsPlainly_of_readTokens (hplain : IsPlainEnding ending) {length : Nat}
    {before? : Option Char} {tokens : List Token} (h : readTokens length before? t = .ok tokens)
    (hending : ending <:+ t) (hslash : '/' ∉ t) : EndsPlainly ending tokens := by
  fun_induction readTokens length before? t generalizing tokens with
  | case1 => exact absurd (List.suffix_nil.mp hending) hplain.ne_nil
  | case2 before? rest ih =>
    obtain ⟨tokens, htokens, rfl⟩ := map_eq_ok_iff.mp h
    have hrest := suffix_of_suffix_cons hplain.noMark hending
    exact (ih htokens hrest fun hmem => hslash (List.mem_cons_of_mem _ hmem)).cons nofun
  | case3 before? rest e hstars =>
    split at h
    next => cases h
    next hother =>
      rw [hstars] at hother
      cases hother
  | case4 before? rest token behind hstars ih =>
    have hstop : ending <:+ rest.dropWhile (· == '*') := by
      refine suffix_dropWhile (fun c hc => ?_) (suffix_of_suffix_cons hplain.noStar hending)
      rw [eq_of_beq hc]
      exact hplain.noStar
    have hslash' : '/' ∉ rest.dropWhile (· == '*') := fun hmem =>
      hslash (List.mem_cons_of_mem _ ((List.dropWhile_sublist _).subset hmem))
    obtain ⟨rfl, rfl⟩ := eq_of_readStars hplain hstop hslash' hstars
    split at h
    next hother =>
      rw [hstars] at hother
      cases hother
    next hother =>
      rw [hstars] at hother
      cases hother
      obtain ⟨tokens, htokens, rfl⟩ := map_eq_ok_iff.mp h
      exact (ih htokens hstop hslash').cons nofun
  | case5 => cases h
  | case6 before? rest token behind hclass ih =>
    obtain ⟨tokens, htokens, rfl⟩ := map_eq_ok_iff.mp h
    obtain ⟨htoken, start, rfl⟩ := exists_of_readClass? hclass
    have hbehind : ending <:+ behind :=
      suffix_of_suffix_append_cons hplain.noClosing (suffix_of_suffix_cons hplain.noOpening hending)
    refine (ih htokens hbehind fun hmem => hslash ?_).cons htoken
    exact List.mem_cons_of_mem _ (List.mem_append_right _ (List.mem_cons_of_mem _ hmem))
  | case7 before? c rest hmark hstar hopening ih =>
    rcases List.suffix_cons_iff.mp hending with rfl | hrest
    · have hrest : ∀ d ∈ rest, d ≠ '?' ∧ d ≠ '*' ∧ d ≠ '[' := fun d hd =>
        have hd := List.mem_cons_of_mem c hd
        ⟨fun h => hplain.noMark (h ▸ hd), fun h => hplain.noStar (h ▸ hd),
          fun h => hplain.noOpening (h ▸ hd)⟩
      rw [readTokens_of_plain hrest] at h
      obtain rfl := Except.ok.inj h
      exact ⟨[], rfl, List.not_mem_nil⟩
    · obtain ⟨tokens, htokens, rfl⟩ := map_eq_ok_iff.mp h
      exact (ih htokens hrest fun hmem => hslash (List.mem_cons_of_mem _ hmem)).cons nofun

/-! ## What tokens cover -/

theorem leftovers_append (first second : List Token) (rests : List Text) :
    leftovers (first ++ second) rests = leftovers second (leftovers first rests) := by
  induction first generalizing rests with
  | nil => rfl
  | cons token first ih =>
    cases token with
    | anySequence => exact ih _
    | char c => exact ih _
    | anyChar => exact ih _
    | oneOf members => exact ih _
    | noneOf members => exact ih _
    | anyDepth => exact ih _

theorem suffix_of_mem_endings (h : rest ∈ endings t) : rest <:+ t := by
  induction t with
  | nil => exact List.mem_singleton.mp h ▸ List.suffix_refl []
  | cons c t ih =>
    rcases List.mem_cons.mp h with rfl | h
    · exact List.suffix_refl _
    · exact (ih h).trans (List.suffix_cons c t)

theorem suffix_of_rest? {token : Token} (h : token.rest? t = some rest) : rest <:+ t := by
  cases t with
  | nil => cases h
  | cons c t =>
    rw [Token.rest?] at h
    split at h
    next => exact Option.some.inj h ▸ List.suffix_cons c t
    next => cases h

/-- Tokens leave an end of what there was. -/
theorem exists_of_mem_leftovers {tokens : List Token} {rests : List Text}
    (h : rest ∈ leftovers tokens rests) : ∃ t ∈ rests, rest <:+ t := by
  induction tokens generalizing rests with
  | nil => exact ⟨rest, h, List.suffix_refl rest⟩
  | cons token tokens ih =>
    have hone : ∀ {token : Token}, rest ∈ leftovers tokens (rests.filterMap token.rest?) →
        ∃ t ∈ rests, rest <:+ t := by
      intro token h
      obtain ⟨u, hu, hsuffix⟩ := ih h
      obtain ⟨t, ht, hrest⟩ := List.mem_filterMap.mp hu
      exact ⟨t, ht, hsuffix.trans (suffix_of_rest? hrest)⟩
    cases token with
    | anySequence =>
      obtain ⟨u, hu, hsuffix⟩ := ih h
      cases rests with
      | nil => cases hu
      | cons t rests =>
        exact ⟨t, List.mem_cons_self, hsuffix.trans (suffix_of_mem_endings hu)⟩
    | char c => exact hone h
    | anyChar => exact hone h
    | oneOf members => exact hone h
    | noneOf members => exact hone h
    | anyDepth => exact hone h

theorem rest?_char_eq_some_iff : (Token.char c).rest? t = some rest ↔ t = c :: rest := by
  cases t with
  | nil => exact iff_of_false nofun nofun
  | cons d t =>
    rw [Token.rest?, Token.covers]
    split
    next h =>
      rw [eq_of_beq h]
      simp
    next h =>
      have hne : d ≠ c := by simpa using h
      simp [hne]

/-- Characters leave what stands behind them. -/
theorem mem_leftovers_chars {rests : List Text} :
    rest ∈ leftovers (t.map .char) rests ↔ t ++ rest ∈ rests := by
  induction t generalizing rests with
  | nil => exact Iff.rfl
  | cons c t ih =>
    show rest ∈ leftovers (t.map .char) (rests.filterMap (Token.char c).rest?) ↔ _
    rw [ih, List.mem_filterMap]
    simp only [rest?_char_eq_some_iff, exists_eq_right, List.cons_append]

theorem suffix_of_covers {tokens : List Token} (hends : EndsPlainly ending tokens)
    (h : covers tokens name = true) : ending <:+ name := by
  obtain ⟨start, rfl, _⟩ := hends
  rw [covers, leftovers_append] at h
  obtain ⟨rest, hrest, hempty⟩ := List.any_eq_true.mp h
  obtain rfl := List.isEmpty_iff.mp hempty
  rw [mem_leftovers_chars, List.append_nil] at hrest
  obtain ⟨t, ht, hsuffix⟩ := exists_of_mem_leftovers hrest
  exact List.mem_singleton.mp ht ▸ hsuffix

/-! ## The last part -/

theorem mapM_char?_chars (t : Text) : (t.map .char).mapM Token.char? = some t := by
  induction t with
  | nil => rfl
  | cons c rest ih => rw [List.map_cons, List.mapM_cons, ih]; rfl

/-- A part whose tokens end plainly covers only names that end in the same way. -/
theorem suffix_of_ofTokens_covers {tokens : List Token} (hends : EndsPlainly ending tokens) :
    Part.ofTokens tokens ≠ .anyDepth ∧
      ∀ name, (Part.ofTokens tokens).covers name = true → ending <:+ name := by
  have hdepth : Token.anyDepth ∉ tokens := by
    obtain ⟨start, rfl, hstart⟩ := hends
    simp [hstart]
  rw [Part.ofTokens, if_neg hdepth]
  split
  next text htext =>
    refine ⟨nofun, fun name hname => ?_⟩
    obtain rfl : text = name := eq_of_beq hname
    obtain ⟨start, rfl, _⟩ := hends
    rw [List.mapM_append, mapM_char?_chars] at htext
    obtain ⟨beginning, _, htext⟩ := Option.bind_eq_some_iff.mp htext
    obtain rfl := Option.some.inj htext
    exact List.suffix_append beginning ending
  next => exact ⟨nofun, fun name => suffix_of_covers hends⟩

theorem getLast?_mergeDepths (parts : List Part) :
    (mergeDepths parts).getLast? = parts.getLast? := by
  fun_induction mergeDepths parts with
  | case1 parts ih => rw [ih, List.getLast?_cons_cons]
  | case2 part parts _ ih => rw [List.getLast?_cons, List.getLast?_cons, ih]
  | case3 => rfl

theorem exists_getLast?_mapM {α β ε : Type} {f : α → Except ε β} {xs : List α} {ys : List β} {x : α}
    (h : xs.mapM f = .ok ys) (hlast : xs.getLast? = some x) :
    ∃ y, ys.getLast? = some y ∧ f x = .ok y := by
  obtain ⟨inner, rfl⟩ := List.getLast?_eq_some_iff.mp hlast
  rw [List.mapM_append] at h
  obtain ⟨first, _, h⟩ := bind_eq_ok_iff.mp h
  obtain ⟨second, hsecond, h⟩ := bind_eq_ok_iff.mp h
  obtain ⟨y, hy, hrest⟩ := bind_eq_ok_iff.mp hsecond
  cases hrest
  cases h
  exact ⟨y, List.getLast?_concat, hy⟩

/-- The last of the pieces between slashes ends as the text does. -/
theorem exists_splitOn_concat (hending : '/' ∉ ending) (h : ending <:+ t) :
    ∃ inner piece, t.splitOn '/' = inner ++ [piece] ∧ '/' ∉ piece ∧ ending <:+ piece := by
  obtain ⟨inner, piece, hpieces, hslash, hform⟩ := Text.exists_last_piece '/' t
  refine ⟨inner, piece, hpieces, hslash, ?_⟩
  rcases hform with ⟨_, rfl⟩ | ⟨_, _, rfl⟩
  · exact h
  · exact suffix_of_suffix_append_cons hending h

theorem exists_getLast?_partTexts (hplain : IsPlainEnding ending) (h : ending <:+ t) :
    ∃ piece, (partTexts t).getLast? = some piece ∧ '/' ∉ piece ∧ ending <:+ piece := by
  have hne : ∀ {t}, ending <:+ t → t ≠ [] := by
    rintro _ hnil rfl
    exact hplain.ne_nil (List.suffix_nil.mp hnil)
  obtain ⟨inner, piece, hpieces, hslash, hpiece⟩ := exists_splitOn_concat hplain.noSlash h
  have hlast : (t.splitOn '/').getLast? = some piece := by
    rw [hpieces]
    exact List.getLast?_concat
  refine ⟨piece, ?_, hslash, hpiece⟩
  rw [partTexts, if_neg (hne h), if_neg (by rw [hlast]; simpa using hne hpiece), hlast]

/-- **The last part of a pattern with a plain ending** covers only names that end in the same
way. -/
theorem exists_last_part (hplain : IsPlainEnding ending) (hending : ending <:+ t)
    {pattern : Pattern} (h : Pattern.ofText t = .ok pattern) :
    ∃ part, pattern.parts.getLast? = some part ∧ part ≠ .anyDepth ∧
      ∀ name, part.covers name = true → ending <:+ name := by
  obtain ⟨_, _, h⟩ := bind_eq_ok_iff.mp h
  obtain ⟨parts, hparts, h⟩ := bind_eq_ok_iff.mp h
  cases h
  have hrelative : ending <:+ if (⟨t⟩ : Path).isAbsolute then t.tail else t := by
    split
    next habsolute =>
      obtain ⟨rest, rfl⟩ := List.head?_eq_some_iff.mp (eq_of_beq habsolute)
      exact suffix_of_suffix_cons hplain.noSlash hending
    next => exact hending
  obtain ⟨piece, hpiece, hslash, hsuffix⟩ := exists_getLast?_partTexts hplain hrelative
  obtain ⟨tokens, htokens, hread⟩ := exists_getLast?_mapM hparts hpiece
  have hends := endsPlainly_of_readTokens hplain hread hsuffix hslash
  refine ⟨Part.ofTokens tokens, ?_, suffix_of_ofTokens_covers hends⟩
  rw [getLast?_mergeDepths, List.getLast?_map, htokens, Option.map_some]

end ShellDoc.Glob
