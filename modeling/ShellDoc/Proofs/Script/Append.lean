import ShellDoc.Proofs.Script.Position

/-!
# Scripts behind scripts

What a script gives, it gives whatever stands behind it: the functions of its first lines come
first, and are the same. When the first lines leave nothing to later lines, the lines behind them
are read as a script of their own, and only the numbers of their header lines tell that others come
before (`functions_append`).

Two facts carry this. The reader does nothing with the number of a line but to write it into the
function that the line opens, so that a run from a later number gives the same functions further
down (`closedBy_below`). And what lines leave can be told from their positions, so that it is
nothing exactly when they are settled (`after_start_eq_start_iff`).
-/

namespace ShellDoc

/-- A function some lines further down. -/
def FunctionDoc.below (lines : Nat) (f : FunctionDoc) : FunctionDoc :=
  { f with line := f.line + lines }

namespace Script

/-- What lines leave to later lines when they stand some lines further down. -/
def Reading.below (lines : Nat) (reading : Reading) : Reading :=
  { reading with current? := reading.current?.map (FunctionDoc.below lines) }

/-- Whether trimmed lines leave nothing to later lines. The last header among them, if there is one,
has a closing brace behind it; and no documentation stands in the window that is open at the end,
which starts where documentation was last taken or dropped. -/
structure IsSettled (marker : Char) (lines : List Text) : Prop where
  closed : ∀ p, lastHeader? marker lines lines.length = some p → ['}'] ∈ lines.drop (p + 1)
  undocumented : ∀ line ∈ lines.drop (windowStart marker lines lines.length),
    ¬ Comment.docMark marker <+: line

variable {marker : Char} {lines : List Text}

/-! ## Runs further down -/

/-- One line does the same further down. -/
theorem next_below (marker : Char) (number : Nat) (line : Text) (reading : Reading) (before : Nat) :
    (reading.below before).next marker (number + before) line =
      ((reading.next marker number line).1.below before,
        (reading.next marker number line).2.map (FunctionDoc.below before)) := by
  obtain ⟨pending, current?⟩ := reading
  unfold Reading.next Reading.below
  cases lineKind marker line with
  | documentation text => rfl
  | header name => rfl
  | closing => cases current? <;> rfl
  | other => cases current? <;> rfl

/-- **Lines further down** close the same functions, further down. -/
theorem closedBy_below (marker : Char) (number : Nat) (reading : Reading) (before : Nat)
    (lines : List Text) :
    closedBy marker (number + before) (reading.below before) lines =
      (closedBy marker number reading lines).map (FunctionDoc.below before) := by
  induction lines generalizing number reading with
  | nil => rfl
  | cons line rest ih =>
    have hoption : ∀ closed? : Option FunctionDoc,
        (closed?.map (FunctionDoc.below before)).toList =
          closed?.toList.map (FunctionDoc.below before) := by
      intro closed?
      cases closed? <;> rfl
    rw [closedBy, closedBy, next_below, List.map_append, hoption, Nat.add_right_comm, ih]

/-! ## Settled lines -/

theorem isClosing_iff {line : Text} : isClosing marker line = true ↔ line = ['}'] := by
  constructor
  · intro h
    have hkind : lineKind marker line = .closing := of_decide_eq_true h
    unfold lineKind at hkind
    split at hkind
    next => cases hkind
    next =>
      split at hkind
      next => cases hkind
      next =>
        split at hkind
        next hline => exact hline
        next => cases hkind
  · rintro rfl
    exact decide_eq_true (lineKind_brace marker)

theorem docText?_eq_none_iff {line : Text} :
    docText? marker line = none ↔ ¬ Comment.docMark marker <+: line := by
  cases hmark : (Comment.docMark marker).isPrefixOf? line with
  | some rest =>
    have hprefix : Comment.docMark marker <+: line :=
      ⟨rest, List.append_eq_of_isPrefixOf?_eq_some hmark⟩
    rw [docText?, lineKind, hmark]
    exact iff_of_false (Option.some_ne_none _) (not_not_intro hprefix)
  | none =>
    have hno : ¬ Comment.docMark marker <+: line := by
      rintro ⟨rest, hrest⟩
      rw [List.isPrefixOf?_eq_some_iff_append_eq.mpr hrest] at hmark
      cases hmark
    refine iff_of_true ?_ hno
    rw [docText?, lineKind, hmark]
    cases headerName? line with
    | some name => rfl
    | none => by_cases hline : line = ['}'] <;> simp only [hline, ↓reduceIte]

/-- No function is open behind the last line when the last header has a closing brace behind it. -/
theorem openFunction?_eq_none_iff :
    openFunction? marker lines = none ↔
      ∀ p, lastHeader? marker lines lines.length = some p → ['}'] ∈ lines.drop (p + 1) := by
  cases hlast : lastHeader? marker lines lines.length with
  | none =>
    refine iff_of_true (openFunction?_of_lastHeader?_none hlast) fun p hp => ?_
    cases hp
  | some p =>
    obtain ⟨-, hsome, -⟩ := lastHeader?_eq_some_iff.mp hlast
    obtain ⟨name, hname⟩ := Option.isSome_iff_exists.mp hsome
    have hclosing : (lines.drop (p + 1)).all (fun line => !isClosing marker line) = true ↔
        ['}'] ∉ lines.drop (p + 1) := by
      simp only [List.all_eq_true, Bool.not_eq_true', ← Bool.not_eq_true, isClosing_iff]
      exact ⟨fun hall hmem => hall _ hmem rfl, fun hno line hline heq => hno (heq ▸ hline)⟩
    rw [openFunction?_of_lastHeader?_some hlast hname]
    simp only [hclosing, Option.some.injEq, forall_eq']
    split
    next hno => exact iff_of_false (Option.some_ne_none _) hno
    next hmem => exact iff_of_true rfl (not_not.mp hmem)

theorem docsBefore_length_eq_nil_iff :
    docsBefore marker lines lines.length = [] ↔
      ∀ line ∈ lines.drop (windowStart marker lines lines.length),
        ¬ Comment.docMark marker <+: line := by
  rw [docsBefore, slice_length, List.filterMap_eq_nil_iff]
  simp only [docText?_eq_none_iff]

/-- **What lines leave to later lines is nothing** exactly when they are settled. -/
theorem after_start_eq_start_iff :
    Reading.start.after marker 1 lines = .start ↔ IsSettled marker lines := by
  rw [after_start_eq_readingAt, readingAt, Reading.start, Reading.mk.injEq,
    docsBefore_length_eq_nil_iff, openFunction?_eq_none_iff]
  constructor
  · rintro ⟨hundocumented, hclosed⟩
    exact ⟨hclosed, hundocumented⟩
  · rintro ⟨hclosed, hundocumented⟩
    exact ⟨hundocumented, hclosed⟩

/-! ## Scripts -/

/-- The functions of a script that is joined from lines. -/
theorem functions_join (marker : Char) {lines : List Text} (h : ∀ line ∈ lines, '\n' ∉ line) :
    functions marker (Text.join ['\n'] lines) = closedBy marker 1 .start (lines.map Text.trim) := by
  rw [functions, functionsFrom_eq_closedBy]
  cases lines with
  | nil => rfl
  | cons line rest => rw [Text.join, List.splitOn_intercalate '\n' h (List.cons_ne_nil line rest)]

/-- **Scripts are read line by line.** The functions of the lines in front come first, whatever
stands behind. If these lines leave nothing to later lines, which is to say that they are settled,
the functions of the lines behind them follow, as far down as there are lines in front. -/
theorem functions_append {xs ys : List Text} (hxs : ∀ line ∈ xs, '\n' ∉ line)
    (hys : ∀ line ∈ ys, '\n' ∉ line) :
    functions marker (Text.join ['\n'] xs) <+: functions marker (Text.join ['\n'] (xs ++ ys)) ∧
      (Reading.start.after marker 1 (xs.map Text.trim) = .start ↔
        IsSettled marker (xs.map Text.trim)) ∧
      (IsSettled marker (xs.map Text.trim) →
        functions marker (Text.join ['\n'] (xs ++ ys)) =
          functions marker (Text.join ['\n'] xs) ++
            (functions marker (Text.join ['\n'] ys)).map (FunctionDoc.below xs.length)) := by
  have hboth : ∀ line ∈ xs ++ ys, '\n' ∉ line := List.forall_mem_append.mpr ⟨hxs, hys⟩
  rw [functions_join marker hboth, functions_join marker hxs, functions_join marker hys,
    List.map_append, closedBy_append, List.length_map]
  refine ⟨List.prefix_append _ _, after_start_eq_start_iff, fun hsettled => ?_⟩
  have hnothing : Reading.start.after marker 1 (xs.map Text.trim) = Reading.start.below xs.length :=
    after_start_eq_start_iff.mpr hsettled
  rw [hnothing, closedBy_below]

/-- Lines that leave nothing to later lines: a brace with nothing to close, documentation for a
function that another one replaces, documentation inside that one, and a brace behind it. -/
def settledLines : List Text :=
  ["\x7d".toList, "## @see nothing".toList, "f() \x7b".toList, "  a".toList, "g() \x7b".toList,
    "## @see inside".toList, "  b".toList, "\x7d".toList, "  \x7d".toList, "x=1".toList]

theorem functions_append_settledLines :
    let ys := ["## @see g".toList, "h() \x7b".toList, "\x7d".toList, "## @see later".toList]
    ((∀ line ∈ settledLines, '\n' ∉ line) ∧ (∀ line ∈ ys, '\n' ∉ line) ∧
      IsSettled '#' (settledLines.map Text.trim)) ∧
      functions '#' (Text.join ['\n'] settledLines) = [⟨['g'], 5, ['b'], none⟩] ∧
      functions '#' (Text.join ['\n'] (settledLines ++ ys)) =
        [⟨['g'], 5, ['b'], none⟩,
          ⟨['h'], 12, [], some (.member "see".toList (.text ['g']) .empty)⟩] := by
  intro ys
  have hxs : ∀ line ∈ settledLines, '\n' ∉ line := by decide
  have hys : ∀ line ∈ ys, '\n' ∉ line := by decide
  obtain ⟨-, hiff, happend⟩ := @functions_append '#' settledLines ys hxs hys
  have hsettled : IsSettled '#' (settledLines.map Text.trim) := hiff.mp (by decide +kernel)
  have hfirst : functions '#' (Text.join ['\n'] settledLines) = [⟨['g'], 5, ['b'], none⟩] := by
    decide +kernel
  refine ⟨⟨hxs, hys, hsettled⟩, hfirst, ?_⟩
  rw [happend hsettled, hfirst]
  decide +kernel

end Script

end ShellDoc
