import ShellDoc.Text
import Mathlib.Data.List.DropRight

/-!
# Laws of texts

Joining: what one more piece adds to a join, and when a join is empty. Trimming: a text stays as it
is when white space does not stand at the end in question (`trimStart_eq_self_iff`,
`trimEnd_eq_self_iff`, `trim_eq_self_iff`), and trimming has done all it can the first time
(`trim_trim`).
-/

namespace ShellDoc.Text

/-! ## Joining -/

/-- A piece behind others stands behind a separator. -/
theorem join_concat {pieces : List Text} (h : pieces ≠ []) (separator piece : Text) :
    join separator (pieces ++ [piece]) = join separator pieces ++ separator ++ piece := by
  induction pieces with
  | nil => exact absurd rfl h
  | cons first rest ih =>
    cases rest with
    | nil => simp only [join, List.cons_append, List.nil_append, List.intercalate_cons_cons,
        List.intercalate_singleton]
    | cons second rest =>
      simp only [join, List.cons_append, List.intercalate_cons_cons] at ih ⊢
      rw [ih (List.cons_ne_nil second rest)]
      simp only [List.append_assoc]

theorem join_singleton (separator piece : Text) : join separator [piece] = piece :=
  List.intercalate_singleton

theorem suffix_join_concat (pieces : List Text) (separator piece : Text) :
    piece <:+ join separator (pieces ++ [piece]) := by
  cases pieces with
  | nil => exact ⟨[], (join_singleton separator piece).symm⟩
  | cons first rest =>
    rw [join_concat (List.cons_ne_nil first rest)]
    exact List.suffix_append _ piece

theorem join_eq_nil_iff {pieces : List Text} (h : ∀ piece ∈ pieces, piece ≠ []) (separator : Text) :
    join separator pieces = [] ↔ pieces = [] := by
  cases pieces with
  | nil => exact ⟨fun _ => rfl, fun _ => rfl⟩
  | cons first rest =>
    have hfirst : first ≠ [] := h first List.mem_cons_self
    refine ⟨fun hjoin => absurd hjoin ?_, fun hnil => absurd hnil (List.cons_ne_nil first rest)⟩
    cases rest with
    | nil => simpa only [join, List.intercalate_singleton] using hfirst
    | cons second rest =>
      rw [join, List.intercalate_cons_cons, List.append_assoc]
      exact List.append_ne_nil_of_left_ne_nil hfirst _

/-! ## Splitting -/

/-- The character that a text is split at stands in none of its pieces. -/
theorem not_mem_of_mem_splitOn (separator : Char) (t : Text) :
    ∀ piece ∈ t.splitOn separator, separator ∉ piece := by
  induction t with
  | nil =>
    intro piece hpiece
    rw [List.splitOn_nil, List.mem_singleton] at hpiece
    rw [hpiece]
    exact List.not_mem_nil
  | cons c rest ih =>
    rw [List.splitOn_cons_eq_if_modifyHead]
    split
    next => exact List.forall_mem_cons.mpr ⟨List.not_mem_nil, ih⟩
    next hc =>
      cases hrest : rest.splitOn separator with
      | nil => exact absurd hrest (List.splitOn_ne_nil separator rest)
      | cons first pieces =>
        rw [hrest] at ih
        obtain ⟨hfirst, hpieces⟩ := List.forall_mem_cons.mp ih
        refine List.forall_mem_cons.mpr ⟨?_, hpieces⟩
        rw [List.mem_cons, not_or]
        exact ⟨fun heq => hc (beq_iff_eq.mpr heq.symm), hfirst⟩

/-- The characters of the pieces are those of the text. -/
theorem subset_of_mem_splitOn (separator : Char) (t : Text) :
    ∀ piece ∈ t.splitOn separator, piece ⊆ t := by
  induction t with
  | nil =>
    intro piece hpiece
    rw [List.splitOn_nil, List.mem_singleton] at hpiece
    rw [hpiece]
    exact List.Subset.refl []
  | cons c rest ih =>
    have hrest : ∀ piece ∈ rest.splitOn separator, piece ⊆ c :: rest :=
      fun piece hpiece => List.subset_cons_of_subset c (ih piece hpiece)
    rw [List.splitOn_cons_eq_if_modifyHead]
    split
    next => exact List.forall_mem_cons.mpr ⟨List.nil_subset _, hrest⟩
    next =>
      cases hsplit : rest.splitOn separator with
      | nil => exact absurd hsplit (List.splitOn_ne_nil separator rest)
      | cons first pieces =>
        rw [hsplit] at hrest
        obtain ⟨hfirst, hpieces⟩ := List.forall_mem_cons.mp hrest
        exact List.forall_mem_cons.mpr
          ⟨List.cons_subset.mpr ⟨List.mem_cons_self, hfirst⟩, hpieces⟩

/-- What stands in front of a text is in front of its first piece, if it is not split itself. -/
theorem splitOn_append_of_not_mem {separator : Char} {front t first : Text} {pieces : List Text}
    (h : separator ∉ front) (ht : t.splitOn separator = first :: pieces) :
    (front ++ t).splitOn separator = (front ++ first) :: pieces := by
  induction front with
  | nil => exact ht
  | cons c front ih =>
    obtain ⟨hc, hfront⟩ := List.ne_and_not_mem_of_not_mem_cons h
    rw [List.cons_append, List.splitOn_cons_eq_if_modifyHead, if_neg, ih hfront]
    · rfl
    · exact fun heq => hc (beq_iff_eq.mp heq).symm

/-- The last piece is the whole text, or stands behind a separator with the other pieces in front. -/
theorem exists_last_piece (separator : Char) (t : Text) :
    ∃ front last, t.splitOn separator = front ++ [last] ∧ separator ∉ last ∧
      (front = [] ∧ t = last ∨
        ∃ before, before.splitOn separator = front ∧ t = before ++ separator :: last) := by
  obtain ⟨front, last, hsplit⟩ : ∃ front last, t.splitOn separator = front ++ [last] :=
    ⟨_, _, (List.dropLast_append_getLast (List.splitOn_ne_nil separator t)).symm⟩
  have hpieces := not_mem_of_mem_splitOn separator t
  rw [hsplit, List.forall_mem_append, List.forall_mem_singleton] at hpieces
  obtain ⟨hfront, hlast⟩ := hpieces
  have hjoin : t = join [separator] (front ++ [last]) := by
    rw [← hsplit]
    exact (List.intercalate_splitOn separator).symm
  refine ⟨front, last, hsplit, hlast, ?_⟩
  by_cases hne : front = []
  · left
    rw [hne, List.nil_append, join_singleton] at hjoin
    exact ⟨hne, hjoin⟩
  · right
    refine ⟨join [separator] front, List.splitOn_intercalate separator hfront hne, ?_⟩
    rw [hjoin, join_concat hne, List.append_assoc, List.singleton_append]

/-- What stands behind a text is split together with the last piece of the text. -/
theorem exists_splitOn_append (separator : Char) (t : Text) :
    ∃ front last, t.splitOn separator = front ++ [last] ∧ separator ∉ last ∧
      ∀ behind, (t ++ behind).splitOn separator = front ++ (last ++ behind).splitOn separator := by
  obtain ⟨front, last, hsplit, hlast, hform⟩ := exists_last_piece separator t
  refine ⟨front, last, hsplit, hlast, fun behind => ?_⟩
  rcases hform with ⟨rfl, rfl⟩ | ⟨before, rfl, rfl⟩
  · rw [List.nil_append]
  · rw [List.append_assoc, List.cons_append]
    exact List.splitOnP_append_cons _ _ (beq_self_eq_true separator)

/-! ## Runs of characters -/

/-- A run of characters ends where one of another kind follows. -/
theorem dropWhile_append {p : Char → Bool} {run rest : Text} (hrun : ∀ c ∈ run, p c = true)
    (hrest : ∀ c ∈ rest.head?, p c = false) : (run ++ rest).dropWhile p = rest := by
  rw [List.dropWhile_append_of_pos hrun]
  cases rest with
  | nil => rfl
  | cons c behind => exact List.dropWhile_cons_of_neg (by rw [hrest c rfl]; decide)

theorem takeWhile_append {p : Char → Bool} {run rest : Text} (hrun : ∀ c ∈ run, p c = true)
    (hrest : ∀ c ∈ rest.head?, p c = false) : (run ++ rest).takeWhile p = run := by
  rw [List.takeWhile_append_of_pos hrun]
  cases rest with
  | nil => exact List.append_nil run
  | cons c behind =>
    rw [List.takeWhile_cons_of_neg (by rw [hrest c rfl]; decide), List.append_nil]

/-! ## Trimming -/

theorem trimStart_cons {c : Char} (h : isSpace c = false) (t : Text) :
    trimStart (c :: t) = c :: t :=
  List.dropWhile_cons_of_neg (by simp only [h, Bool.false_eq_true, not_false_eq_true])

theorem trimStart_eq_self_iff {t : Text} :
    trimStart t = t ↔ ∀ c ∈ t.head?, isSpace c = false := by
  refine ⟨fun h c hc => ?_, fun h => ?_⟩
  · have hhead := List.head?_dropWhile_not isSpace t
    rw [← trimStart, h, Option.mem_def.mp hc] at hhead
    exact hhead
  · cases t with
    | nil => rfl
    | cons c rest => exact trimStart_cons (h c rfl) rest

theorem trimEnd_eq_self_iff {t : Text} :
    trimEnd t = t ↔ ∀ c ∈ t.getLast?, isSpace c = false := by
  rw [trimEnd, List.reverse_eq_iff, ← List.head?_reverse]
  exact trimStart_eq_self_iff

theorem trimEnd_isPrefix (t : Text) : trimEnd t <+: t :=
  List.rdropWhile_prefix isSpace t

theorem trimStart_trimStart (t : Text) : trimStart (trimStart t) = trimStart t :=
  List.dropWhile_idempotent isSpace t

theorem trimEnd_trimEnd (t : Text) : trimEnd (trimEnd t) = trimEnd t :=
  List.rdropWhile_idempotent isSpace t

/-- A beginning of a text has nothing to trim at its start if the text has nothing. -/
theorem trimStart_of_isPrefix {beginning t : Text} (hbeginning : beginning <+: t)
    (h : trimStart t = t) : trimStart beginning = beginning := by
  rw [trimStart_eq_self_iff] at h ⊢
  obtain ⟨rest, rfl⟩ := hbeginning
  intro c hc
  refine h c ?_
  rw [List.head?_append, Option.mem_def.mp hc]
  rfl

/-- An ending of a text has nothing to trim at its end if the text has nothing. -/
theorem trimEnd_of_isSuffix {ending t : Text} (hending : ending <:+ t) (h : trimEnd t = t) :
    trimEnd ending = ending := by
  rw [trimEnd_eq_self_iff] at h ⊢
  obtain ⟨front, rfl⟩ := hending
  intro c hc
  apply h c
  rw [List.getLast?_append, Option.mem_def.mp hc]
  rfl

/-- Trimming at the end does not uncover white space at the start. -/
theorem trimStart_trimEnd {t : Text} (h : trimStart t = t) : trimStart (trimEnd t) = trimEnd t :=
  trimStart_of_isPrefix (trimEnd_isPrefix t) h

theorem trim_trim (t : Text) : trim (trim t) = trim t := by
  rw [trim, trim, trimStart_trimEnd (trimStart_trimStart t), trimEnd_trimEnd]

/-- A trimmed text has nothing to trim at either end. -/
theorem trim_eq_self_iff {t : Text} : trim t = t ↔ trimStart t = t ∧ trimEnd t = t := by
  refine ⟨fun h => ?_, fun ⟨hstart, hend⟩ => by rw [trim, hstart, hend]⟩
  rw [← h]
  exact ⟨trimStart_trimEnd (trimStart_trimStart t), trimEnd_trimEnd (trimStart t)⟩

theorem trim_sublist (t : Text) : (trim t).Sublist t :=
  (trimEnd_isPrefix (trimStart t)).sublist.trans (List.dropWhile_sublist isSpace)

theorem mem_of_mem_trim {c : Char} {t : Text} (h : c ∈ trim t) : c ∈ t :=
  (trim_sublist t).mem h

theorem trimEnd_append_of_ne_nil {last : Text} (h : trimEnd last ≠ []) (t : Text) :
    trimEnd (t ++ last) = t ++ trimEnd last := by
  have hleft : (last.reverse.dropWhile isSpace).isEmpty = false := by
    rw [List.isEmpty_eq_false_iff]
    exact fun hnil => h (List.reverse_eq_nil_iff.mpr hnil)
  simp only [trimEnd, List.reverse_append, List.dropWhile_append, hleft, Bool.false_eq_true,
    ↓reduceIte, List.reverse_reverse]

/-- White space at the end of a text is trimmed away. -/
theorem trimEnd_append_spaces {spaces : Text} (h : ∀ c ∈ spaces, isSpace c = true) (t : Text) :
    trimEnd (t ++ spaces) = trimEnd t := by
  rw [trimEnd, List.reverse_append, List.dropWhile_append_of_pos, trimEnd]
  intro c hc
  exact h c (List.mem_reverse.mp hc)

theorem trim_append_spaces {spaces : Text} (h : ∀ c ∈ spaces, isSpace c = true) (t : Text) :
    trim (t ++ spaces) = trim t := by
  rw [trim, trim, trimStart, trimStart, List.dropWhile_append]
  split
  next hnil => rw [List.isEmpty_iff.mp hnil, List.dropWhile_eq_nil_iff.mpr h]
  next => exact trimEnd_append_spaces h _

/-- White space in front of a text is trimmed away. -/
theorem trim_spaces_append {spaces : Text} (h : ∀ c ∈ spaces, isSpace c = true) (t : Text) :
    trim (spaces ++ t) = trim t := by
  have hstart : trimStart (spaces ++ t) = trimStart t := List.dropWhile_append_of_pos h
  rw [trim, trim, hstart]

/-- What is trimmed away at the end of a text is white space. -/
theorem exists_append_spaces (t : Text) :
    ∃ spaces, t = trimEnd t ++ spaces ∧ ∀ c ∈ spaces, isSpace c = true := by
  refine ⟨t.rtakeWhile isSpace, List.rdropWhile_append_rtakeWhile.symm, fun c hc => ?_⟩
  exact @List.mem_rtakeWhile_imp Char isSpace t c hc

/-- What stands at the end decides whether there is something to trim at the end. -/
theorem trimEnd_append {last : Text} (hne : last ≠ []) (h : trimEnd last = last) (t : Text) :
    trimEnd (t ++ last) = t ++ last := by
  rw [trimEnd_append_of_ne_nil (h.symm ▸ hne), h]

/-- What is trimmed behind a text leaves all of it if it has nothing to trim at its own end. -/
theorem trimEnd_append_right {t : Text} (h : trimEnd t = t) (last : Text) :
    trimEnd (t ++ last) = t ++ trimEnd last := by
  by_cases hlast : trimEnd last = []
  · obtain ⟨spaces, hsplit, hspaces⟩ := exists_append_spaces last
    rw [hlast, List.nil_append] at hsplit
    rw [hlast, hsplit, trimEnd_append_spaces hspaces, h, List.append_nil]
  · exact trimEnd_append_of_ne_nil hlast t

/-- The ends of a text can be trimmed in either order. -/
theorem trimStart_trimEnd_eq_trim (t : Text) : trimStart (trimEnd t) = trim t := by
  obtain ⟨spaces, hsplit, hspaces⟩ := exists_append_spaces t
  have hend : trimEnd (trimStart (trimEnd t)) = trimStart (trimEnd t) :=
    trimEnd_of_isSuffix (List.dropWhile_suffix isSpace) (trimEnd_trimEnd t)
  calc trimStart (trimEnd t)
    _ = trim (trimEnd t) := hend.symm
    _ = trim (trimEnd t ++ spaces) := (trim_append_spaces hspaces (trimEnd t)).symm
    _ = trim t := by rw [← hsplit]

/-- A text that starts with another character than white space is not trimmed away at its end. -/
theorem trimEnd_ne_nil {t : Text} (hne : t ≠ []) (h : trimStart t = t) : trimEnd t ≠ [] := by
  intro hnil
  have hspaces : ∀ c ∈ t, isSpace c = true := List.rdropWhile_eq_nil_iff.mp hnil
  cases t with
  | nil => exact hne rfl
  | cons c rest =>
    have hc : isSpace c = false := trimStart_eq_self_iff.mp h c rfl
    rw [hspaces c List.mem_cons_self] at hc
    exact Bool.noConfusion hc

/-- A character in front that is not white space leaves nothing to trim at the start. -/
theorem trim_cons {c : Char} (hc : isSpace c = false) {t : Text} (h : trimEnd t = t) :
    trim (c :: t) = c :: t := by
  have hfirst : trimEnd [c] = [c] := by
    rw [trimEnd_eq_self_iff]
    intro d hd
    rw [← Option.some.inj hd]
    exact hc
  rw [trim, trimStart_cons hc]
  calc trimEnd ([c] ++ t)
    _ = [c] ++ trimEnd t := trimEnd_append_right hfirst t
    _ = [c] ++ t := by rw [h]

theorem trimEnd_eq_self_of_forall {t : Text} (h : ∀ c ∈ t, isSpace c = false) : trimEnd t = t :=
  trimEnd_eq_self_iff.mpr fun c hc => h c (List.mem_of_getLast? hc)

/-! ## Runs of one character -/

/-- A text that does not start with a character has no run of it to drop. -/
theorem dropWhile_beq_eq_self {c : Char} {t : Text} (h : ∀ d ∈ t.head?, d ≠ c) :
    t.dropWhile (· == c) = t := by
  cases t with
  | nil => rfl
  | cons d rest => exact List.dropWhile_cons_of_neg fun heq => h d rfl (beq_iff_eq.mp heq)

/-- A run of one character in front of a text is a part of the run that the whole starts with. -/
theorem takeWhile_replicate_append (n : Nat) (c : Char) (t : Text) :
    (List.replicate n c ++ t).takeWhile (· == c) = List.replicate n c ++ t.takeWhile (· == c) :=
  List.takeWhile_append_of_pos fun _ hd => beq_iff_eq.mpr (List.eq_of_mem_replicate hd)

theorem dropWhile_replicate_append (n : Nat) (c : Char) (t : Text) :
    (List.replicate n c ++ t).dropWhile (· == c) = t.dropWhile (· == c) :=
  List.dropWhile_append_of_pos fun _ hd => beq_iff_eq.mpr (List.eq_of_mem_replicate hd)

theorem ne_of_isSpace {c d : Char} (hc : isSpace c = true) (hd : isSpace d = false) : c ≠ d := by
  rintro rfl
  exact Bool.noConfusion (hc.symm.trans hd)

/-! ## Classes of characters -/

theorem isSpace_of_isAlphanum {c : Char} (h : c.isAlphanum = true) : isSpace c = false := by
  have hval : c.val.toNat = c.toNat := rfl
  have hrange : 48 ≤ c.toNat ∧ c.toNat ≤ 122 := by
    unfold Char.isAlphanum Char.isAlpha Char.isUpper Char.isLower Char.isDigit at h
    simp only [Bool.or_eq_true, Bool.and_eq_true, decide_eq_true_eq, ge_iff_le,
      UInt32.le_iff_toNat_le, Char.reduceVal, UInt32.reduceToNat, hval] at h
    omega
  simp only [isSpace, Bool.or_eq_false_iff, Bool.and_eq_false_iff, decide_eq_false_iff_not,
    beq_eq_false_iff_ne]
  omega

end ShellDoc.Text
