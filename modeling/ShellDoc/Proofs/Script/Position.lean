import ShellDoc.Proofs.Script.Run
import Mathlib.Data.List.Basic
import Mathlib.Data.List.Induction
import Mathlib.Data.Option.Basic

/-!
# Functions by the positions of their lines

The reader of scripts goes through the lines once and keeps what waits for a header and what is open.
Here the functions of a script are said without it, from the positions of the lines alone
(`functions_eq_filterMap_functionAt?`):

* a header gives a function when a closing brace follows it with no other header in between;
* the body is the other lines between the header and the first closing brace behind it;
* the documentation stands in the window of the header (`windowStart`). The window starts behind the
  previous header, or, if that function was closed before this header, behind the first closing
  brace; without a previous header it starts with the script.

The invariant of the proof is `readingAt`: what the reader keeps after some lines is the
documentation in the window of a header that came next, and the function of the last header, with
the body up to here, if no closing brace has followed.
-/

namespace ShellDoc.Script

/-- The lines of a script, each trimmed. -/
def trimmedLines (script : Text) : List Text :=
  (script.splitOn '\n').map Text.trim

section Positions

variable (marker : Char) (lines : List Text)

/-- The name in a line that is a header. -/
def header? (line : Text) : Option Text :=
  match lineKind marker line with
  | .header name => some name
  | _ => none

/-- The text behind the marker in a line of documentation. -/
def docText? (line : Text) : Option Text :=
  match lineKind marker line with
  | .documentation text => some text
  | _ => none

/-- Whether a line is a closing brace. -/
def isClosing (line : Text) : Bool :=
  lineKind marker line = .closing

/-- Whether a line is of the last kind, and not empty. -/
def isBodyLine (line : Text) : Bool :=
  lineKind marker line = .other ∧ line ≠ []

/-- The lines from position `i` on that stand before position `j`. -/
def slice (i j : Nat) : List Text :=
  (lines.take j).drop i

/-- The name in the line at a position, if a header stands there. -/
def headerAt? (i : Nat) : Option Text :=
  lines[i]?.bind (header? marker)

/-- The position of the last header that stands before position `h`. -/
def lastHeader? : Nat → Option Nat
  | 0 => none
  | h + 1 => if (headerAt? marker lines h).isSome then some h else lastHeader? h

/-- The position at which the window of a header at position `h` starts. -/
def windowStart (h : Nat) : Nat :=
  match lastHeader? marker lines h with
  | none => 0
  | some p =>
    match (slice lines (p + 1) h).findIdx? (isClosing marker) with
    | none => p + 1
    | some i => p + 1 + i + 1

/-- The documentation in the window of a header at position `h`. -/
def docsBefore (h : Nat) : List Text :=
  (slice lines (windowStart marker lines h) h).filterMap (docText? marker)

/-- The metadata of a header at position `h`: none without documentation in its window. -/
def metadataBefore? (h : Nat) : Option Tree :=
  let docs := docsBefore marker lines h
  if docs = [] then none else some (Comment.metadata marker (Text.join ['\n'] docs))

/-- The body of a header at position `h`, up to position `c`. -/
def bodyBetween (h c : Nat) : Text :=
  Text.join ['\n'] ((slice lines (h + 1) c).filter (isBodyLine marker))

/-- The function of a header at position `h`, its body being read up to position `c`. -/
def functionBetween (name : Text) (h c : Nat) : FunctionDoc where
  name := name
  line := h + 1
  body := bodyBetween marker lines h c
  metadata? := metadataBefore? marker lines h

/-- The function that the line at position `h` gives: the line is a header, a closing brace follows,
and no header stands between it and the first closing brace. -/
def functionAt? (h : Nat) : Option FunctionDoc := do
  let name ← headerAt? marker lines h
  let i ← (lines.drop (h + 1)).findIdx? (isClosing marker)
  let close := h + 1 + i
  guard ((slice lines (h + 1) close).all fun line => (header? marker line).isNone)
  return functionBetween marker lines name h close

/-- The function that is open behind the last line. -/
def openFunction? : Option FunctionDoc := do
  let p ← lastHeader? marker lines lines.length
  let name ← headerAt? marker lines p
  guard ((lines.drop (p + 1)).all fun line => !isClosing marker line)
  return functionBetween marker lines name p lines.length

/-- What the lines leave to later lines. -/
def readingAt : Reading :=
  ⟨docsBefore marker lines lines.length, openFunction? marker lines⟩

end Positions

variable {marker : Char} {lines : List Text}

/-! ## Slices -/

@[simp] theorem slice_self (lines : List Text) (i : Nat) : slice lines i i = [] :=
  List.drop_eq_nil_of_le (List.length_take_le i lines)

theorem slice_length (lines : List Text) (i : Nat) :
    slice lines i lines.length = lines.drop i := by
  rw [slice, List.take_length]

theorem slice_append {j : Nat} (h : j ≤ lines.length) (i : Nat) (more : List Text) :
    slice (lines ++ more) i j = slice lines i j := by
  rw [slice, slice, List.take_append_of_le_length h]

theorem slice_concat {i : Nat} (h : i ≤ lines.length) (line : Text) :
    slice (lines ++ [line]) i (lines.length + 1) = slice lines i lines.length ++ [line] := by
  have hlength : lines.length + 1 = (lines ++ [line]).length := by
    rw [List.length_append, List.length_singleton]
  rw [hlength, slice_length, slice_length, List.drop_append_of_le_length h]

theorem mem_slice_iff {i j : Nat} {line : Text} :
    line ∈ slice lines i j ↔ ∃ k, i ≤ k ∧ k < j ∧ lines[k]? = some line := by
  rw [slice, List.mem_iff_getElem?]
  simp only [List.getElem?_drop, List.getElem?_take]
  constructor
  · rintro ⟨k, hk⟩
    split at hk
    next hlt => exact ⟨i + k, Nat.le_add_right i k, hlt, hk⟩
    next => cases hk
  · rintro ⟨k, hi, hj, hk⟩
    refine ⟨k - i, ?_⟩
    rw [Nat.add_sub_cancel' hi, if_pos hj, hk]

theorem all_not_isClosing_iff {lines : List Text} :
    lines.all (fun line => !isClosing marker line) = true ↔
      lines.findIdx? (isClosing marker) = none := by
  simp only [List.all_eq_true, Bool.not_eq_true', List.findIdx?_eq_none_iff]

/-! ## Headers -/

theorem headerAt?_append {i : Nat} (h : i < lines.length) (more : List Text) :
    headerAt? marker (lines ++ more) i = headerAt? marker lines i := by
  rw [headerAt?, headerAt?, List.getElem?_append_left h]

theorem headerAt?_concat (marker : Char) (lines : List Text) (line : Text) :
    headerAt? marker (lines ++ [line]) lines.length = header? marker line := by
  rw [headerAt?, List.getElem?_concat_length, Option.bind_some]

/-- No header stands in a slice when none stands at its positions. -/
theorem all_slice_iff {i j : Nat} :
    (slice lines i j).all (fun line => (header? marker line).isNone) = true ↔
      ∀ k, i ≤ k → k < j → headerAt? marker lines k = none := by
  simp only [List.all_eq_true, mem_slice_iff, Option.isNone_iff_eq_none, headerAt?]
  constructor
  · intro hall k hi hj
    cases hk : lines[k]? with
    | none => rfl
    | some line => exact hall line ⟨k, hi, hj, hk⟩
  · rintro hall line ⟨k, hi, hj, hk⟩
    simpa only [hk, Option.bind_some] using hall k hi hj

/-- The last header before a position, and nothing else, has no header behind it up to there. -/
theorem lastHeader?_eq_some_iff {h p : Nat} :
    lastHeader? marker lines h = some p ↔
      p < h ∧ (headerAt? marker lines p).isSome ∧
        ∀ k, p < k → k < h → headerAt? marker lines k = none := by
  induction h with
  | zero => simp only [lastHeader?, reduceCtorEq, Nat.not_lt_zero, false_and]
  | succ h ih =>
    unfold lastHeader?
    split
    next hsome =>
      rw [Option.some.injEq]
      constructor
      · rintro rfl
        exact ⟨Nat.lt_succ_self h, hsome, fun k hk hk' => by omega⟩
      · rintro ⟨hp, -, hnone⟩
        rcases Nat.lt_succ_iff_lt_or_eq.mp hp with hlt | heq
        · rw [hnone h hlt (Nat.lt_succ_self h)] at hsome
          cases hsome
        · exact heq.symm
    next hnone =>
      rw [Option.not_isSome_iff_eq_none] at hnone
      rw [ih]
      constructor
      · rintro ⟨hp, hsome, hall⟩
        refine ⟨Nat.lt_succ_of_lt hp, hsome, fun k hk hk' => ?_⟩
        rcases Nat.lt_succ_iff_lt_or_eq.mp hk' with hlt | rfl
        · exact hall k hk hlt
        · exact hnone
      · rintro ⟨hp, hsome, hall⟩
        refine ⟨?_, hsome, fun k hk hk' => hall k hk (Nat.lt_succ_of_lt hk')⟩
        rcases Nat.lt_succ_iff_lt_or_eq.mp hp with hlt | rfl
        · exact hlt
        · rw [hnone] at hsome
          cases hsome

theorem lastHeader?_append {h : Nat} (hh : h ≤ lines.length) (more : List Text) :
    lastHeader? marker (lines ++ more) h = lastHeader? marker lines h := by
  induction h with
  | zero => rfl
  | succ h ih => rw [lastHeader?, lastHeader?, headerAt?_append hh, ih (Nat.le_of_succ_le hh)]

theorem lastHeader?_concat (marker : Char) (lines : List Text) (line : Text) :
    lastHeader? marker (lines ++ [line]) (lines.length + 1) =
      if (header? marker line).isSome then some lines.length
      else lastHeader? marker lines lines.length := by
  rw [lastHeader?, headerAt?_concat, lastHeader?_append (Nat.le_refl _)]

/-! ## Windows -/

theorem windowStart_le (marker : Char) (lines : List Text) (h : Nat) :
    windowStart marker lines h ≤ h := by
  unfold windowStart
  split
  next => exact Nat.zero_le h
  next p hlast =>
    have hp : p < h := (lastHeader?_eq_some_iff.mp hlast).1
    split
    next => exact hp
    next i hi =>
      obtain ⟨hlength, -⟩ := List.findIdx?_eq_some_iff_findIdx_eq.mp hi
      simp only [slice, List.length_drop, List.length_take] at hlength
      omega

theorem windowStart_append {h : Nat} (hh : h ≤ lines.length) (more : List Text) :
    windowStart marker (lines ++ more) h = windowStart marker lines h := by
  rw [windowStart, windowStart, lastHeader?_append hh]
  simp only [slice_append hh]

theorem docsBefore_append {h : Nat} (hh : h ≤ lines.length) (more : List Text) :
    docsBefore marker (lines ++ more) h = docsBefore marker lines h := by
  rw [docsBefore, docsBefore, windowStart_append hh, slice_append hh]

/-- A header starts a new window. -/
theorem windowStart_concat_header {line name : Text} (h : header? marker line = some name) :
    windowStart marker (lines ++ [line]) (lines.length + 1) = lines.length + 1 := by
  rw [windowStart, lastHeader?_concat, h]
  simp only [Option.isSome_some, ↓reduceIte, slice_self, List.findIdx?_nil]

/-- A line that is neither a header nor a closing brace leaves the window as it is. -/
theorem windowStart_concat_plain {line : Text} (h : header? marker line = none)
    (hclosing : isClosing marker line = false) :
    windowStart marker (lines ++ [line]) (lines.length + 1) =
      windowStart marker lines lines.length := by
  rw [windowStart, windowStart, lastHeader?_concat, h]
  simp only [Option.isSome_none, Bool.false_eq_true, ↓reduceIte]
  cases hlast : lastHeader? marker lines lines.length with
  | none => rfl
  | some p =>
    have hp : p < lines.length := (lastHeader?_eq_some_iff.mp hlast).1
    simp only [slice_concat (Nat.succ_le_of_lt hp), List.findIdx?_append, List.findIdx?_singleton,
      hclosing, Bool.false_eq_true, ↓reduceIte, Option.map_none, Option.or_none]

/-- A window that goes on takes the documentation of one more line. -/
theorem docsBefore_concat_of_windowStart {line : Text}
    (h : windowStart marker (lines ++ [line]) (lines.length + 1) =
      windowStart marker lines lines.length) :
    docsBefore marker (lines ++ [line]) (lines.length + 1) =
      docsBefore marker lines lines.length ++ (docText? marker line).toList := by
  rw [docsBefore, docsBefore, h, slice_concat (windowStart_le marker lines lines.length),
    List.filterMap_append]
  cases hdoc : docText? marker line with
  | none => simp only [List.filterMap_cons, hdoc, List.filterMap_nil, Option.toList_none]
  | some text => simp only [List.filterMap_cons, hdoc, List.filterMap_nil, Option.toList_some]

theorem docsBefore_concat_of_windowStart_end {line : Text}
    (h : windowStart marker (lines ++ [line]) (lines.length + 1) = lines.length + 1) :
    docsBefore marker (lines ++ [line]) (lines.length + 1) = [] := by
  rw [docsBefore, h, slice_self, List.filterMap_nil]

/-! ## Bodies -/

/-- One more line extends a body, if it is a line of the last kind. -/
theorem bodyBetween_concat {h : Nat} (hh : h < lines.length) (line : Text) :
    bodyBetween marker (lines ++ [line]) h (lines.length + 1) =
      if lineKind marker line = .other then extendBody (bodyBetween marker lines h lines.length) line
      else bodyBetween marker lines h lines.length := by
  have hpieces : ∀ piece ∈ (slice lines (h + 1) lines.length).filter (isBodyLine marker),
      piece ≠ [] := by
    intro piece hpiece
    have hbody := (List.mem_filter.mp hpiece).2
    simp only [isBodyLine, decide_eq_true_eq] at hbody
    exact hbody.2
  rw [bodyBetween, bodyBetween, slice_concat (Nat.succ_le_of_lt hh), List.filter_append,
    extendBody_join hpieces, List.filter_cons,
    List.filter_nil]
  by_cases hother : lineKind marker line = .other
  · rw [if_pos hother]
    by_cases hline : line = []
    · have hbody : isBodyLine marker line = false := decide_eq_false fun h => h.2 hline
      rw [hbody, if_pos hline, if_neg Bool.false_ne_true]
    · have hbody : isBodyLine marker line = true := decide_eq_true ⟨hother, hline⟩
      rw [hbody, if_neg hline, if_pos rfl]
  · have hbody : isBodyLine marker line = false := decide_eq_false fun h => hother h.1
    rw [hbody, if_neg hother, if_neg Bool.false_ne_true, List.append_nil]

theorem functionBetween_append {h c : Nat} (hh : h ≤ lines.length) (hc : c ≤ lines.length)
    (name : Text) (more : List Text) :
    functionBetween marker (lines ++ more) name h c = functionBetween marker lines name h c := by
  simp only [functionBetween, bodyBetween, metadataBefore?, slice_append hc, docsBefore_append hh]

/-- One more line extends the body of the function before it, if it is a line of the last kind. -/
theorem functionBetween_concat {h : Nat} (hh : h < lines.length) (name line : Text) :
    functionBetween marker (lines ++ [line]) name h (lines.length + 1) =
      { functionBetween marker lines name h lines.length with
        body :=
          if lineKind marker line = .other then
            extendBody (functionBetween marker lines name h lines.length).body line
          else (functionBetween marker lines name h lines.length).body } := by
  simp only [functionBetween, metadataBefore?, docsBefore_append (Nat.le_of_lt hh),
    bodyBetween_concat hh]

/-! ## The open function -/

theorem openFunction?_of_lastHeader?_none (h : lastHeader? marker lines lines.length = none) :
    openFunction? marker lines = none := by
  rw [openFunction?, h]
  rfl

/-- The function of the last header is open as long as no closing brace follows. -/
theorem openFunction?_of_lastHeader?_some {p : Nat} {name : Text}
    (h : lastHeader? marker lines lines.length = some p)
    (hname : headerAt? marker lines p = some name) :
    openFunction? marker lines =
      if (lines.drop (p + 1)).all (fun line => !isClosing marker line) then
        some (functionBetween marker lines name p lines.length)
      else none := by
  rw [openFunction?, h]
  show Option.bind (headerAt? marker lines p) _ = _
  rw [hname]
  show Option.bind (guard _) _ = _
  split
  next hall => rw [hall]; rfl
  next hall => rw [Bool.not_eq_true] at hall; rw [hall]; rfl

/-- A header opens its function, with an empty body. -/
theorem openFunction?_concat_header {line name : Text} (h : header? marker line = some name) :
    openFunction? marker (lines ++ [line]) =
      some ⟨name, lines.length + 1, [], metadataBefore? marker lines lines.length⟩ := by
  have hlength : (lines ++ [line]).length = lines.length + 1 := by
    rw [List.length_append, List.length_singleton]
  have hlast : lastHeader? marker (lines ++ [line]) (lines ++ [line]).length = some lines.length := by
    rw [hlength, lastHeader?_concat, h, Option.isSome_some, if_pos rfl]
  rw [openFunction?_of_lastHeader?_some hlast ((headerAt?_concat marker lines line).trans h),
    ← hlength, List.drop_length, List.all_nil, if_pos rfl, hlength]
  simp only [functionBetween, bodyBetween, metadataBefore?, docsBefore_append (Nat.le_refl _),
    slice_self, List.filter_nil, Text.join, List.intercalate_nil]

/-- A line that is not a header leaves the open function open, unless it closes it. -/
theorem openFunction?_concat_of_not_header {line : Text} (h : header? marker line = none) :
    openFunction? marker (lines ++ [line]) =
      if isClosing marker line then none
      else (openFunction? marker lines).map fun f =>
        { f with body := if lineKind marker line = .other then extendBody f.body line else f.body } := by
  have hlength : (lines ++ [line]).length = lines.length + 1 := by
    rw [List.length_append, List.length_singleton]
  have hlast : lastHeader? marker (lines ++ [line]) (lines ++ [line]).length =
      lastHeader? marker lines lines.length := by
    rw [hlength, lastHeader?_concat, h, Option.isSome_none, if_neg Bool.false_ne_true]
  cases hprevious : lastHeader? marker lines lines.length with
  | none =>
    rw [openFunction?_of_lastHeader?_none (hlast.trans hprevious),
      openFunction?_of_lastHeader?_none hprevious, Option.map_none, ite_self]
  | some p =>
    obtain ⟨hp, hsome, -⟩ := lastHeader?_eq_some_iff.mp hprevious
    obtain ⟨name, hname⟩ := Option.isSome_iff_exists.mp hsome
    rw [openFunction?_of_lastHeader?_some (hlast.trans hprevious)
        ((headerAt?_append hp [line]).trans hname),
      openFunction?_of_lastHeader?_some hprevious hname, hlength, functionBetween_concat hp,
      List.drop_append_of_le_length (Nat.succ_le_of_lt hp), List.all_append, List.all_cons,
      List.all_nil, Bool.and_true]
    cases isClosing marker line with
    | true => simp only [Bool.not_true, Bool.and_false, Bool.false_eq_true, ↓reduceIte]
    | false =>
      simp only [Bool.not_false, Bool.and_true, Bool.false_eq_true, ↓reduceIte]
      split <;> rfl

/-- A closing brace ends the window if it closes a function. -/
theorem windowStart_concat_closing {line : Text} (h : header? marker line = none)
    (hclosing : isClosing marker line = true) :
    windowStart marker (lines ++ [line]) (lines.length + 1) =
      if (openFunction? marker lines).isSome then lines.length + 1
      else windowStart marker lines lines.length := by
  rw [windowStart, windowStart, lastHeader?_concat, h, Option.isSome_none,
    if_neg Bool.false_ne_true]
  cases hlast : lastHeader? marker lines lines.length with
  | none =>
    rw [openFunction?_of_lastHeader?_none hlast, Option.isSome_none, if_neg Bool.false_ne_true]
  | some p =>
    obtain ⟨hp, hsome, -⟩ := lastHeader?_eq_some_iff.mp hlast
    obtain ⟨name, hname⟩ := Option.isSome_iff_exists.mp hsome
    rw [openFunction?_of_lastHeader?_some hlast hname]
    simp only [slice_concat (Nat.succ_le_of_lt hp), slice_length, List.findIdx?_append,
      List.findIdx?_singleton, hclosing, ↓reduceIte, Option.map_some, Nat.zero_add]
    cases hfirst : (lines.drop (p + 1)).findIdx? (isClosing marker) with
    | none =>
      simp only [all_not_isClosing_iff.mpr hfirst, ↓reduceIte, Option.isSome_some, Option.none_or,
        List.length_drop]
      omega
    | some i =>
      simp only [all_not_isClosing_iff, hfirst, reduceCtorEq, ↓reduceIte, Option.isSome_none,
        Bool.false_eq_true, Option.some_or]

/-! ## What lines leave to later lines -/

/-- **The step of the invariant**: one more line takes what the lines before it leave to what the
lines with it leave. -/
theorem readingAt_concat (marker : Char) (lines : List Text) (line : Text) :
    readingAt marker (lines ++ [line]) =
      ((readingAt marker lines).next marker (lines.length + 1) line).1 := by
  have hlength : (lines ++ [line]).length = lines.length + 1 := by
    rw [List.length_append, List.length_singleton]
  rw [readingAt, hlength]
  cases hkind : lineKind marker line with
  | documentation text =>
    have hheader : header? marker line = none := by rw [header?, hkind]
    have hclosing : isClosing marker line = false := by rw [isClosing, hkind]; rfl
    have hdoc : docText? marker line = some text := by rw [docText?, hkind]
    rw [docsBefore_concat_of_windowStart (windowStart_concat_plain hheader hclosing), hdoc,
      openFunction?_concat_of_not_header hheader, hclosing, hkind]
    simp only [Reading.next, hkind, readingAt, Option.toList_some, Bool.false_eq_true, ↓reduceIte,
      reduceCtorEq, Option.map_id']
  | header name =>
    have hheader : header? marker line = some name := by rw [header?, hkind]
    rw [docsBefore_concat_of_windowStart_end (windowStart_concat_header hheader),
      openFunction?_concat_header hheader]
    simp only [Reading.next, hkind, readingAt]
    rfl
  | closing =>
    have hheader : header? marker line = none := by rw [header?, hkind]
    have hclosing : isClosing marker line = true := by rw [isClosing, hkind]; rfl
    have hdoc : docText? marker line = none := by rw [docText?, hkind]
    have hstart := @windowStart_concat_closing marker lines line hheader hclosing
    rw [openFunction?_concat_of_not_header hheader, hclosing, if_pos rfl]
    cases hopen : openFunction? marker lines with
    | none =>
      rw [hopen, Option.isSome_none, if_neg Bool.false_ne_true] at hstart
      rw [docsBefore_concat_of_windowStart hstart, hdoc, Option.toList_none, List.append_nil]
      simp only [Reading.next, hkind, readingAt, hopen]
    | some f =>
      rw [hopen, Option.isSome_some, if_pos rfl] at hstart
      rw [docsBefore_concat_of_windowStart_end hstart]
      simp only [Reading.next, hkind, readingAt, hopen, Reading.start]
  | other =>
    have hheader : header? marker line = none := by rw [header?, hkind]
    have hclosing : isClosing marker line = false := by rw [isClosing, hkind]; rfl
    have hdoc : docText? marker line = none := by rw [docText?, hkind]
    rw [docsBefore_concat_of_windowStart (windowStart_concat_plain hheader hclosing), hdoc,
      openFunction?_concat_of_not_header hheader, hclosing, hkind]
    simp only [Reading.next, hkind, readingAt, Option.toList_none, List.append_nil,
      Bool.false_eq_true, ↓reduceIte]
    cases openFunction? marker lines with
    | none => rfl
    | some f => rfl

/-- What lines leave to later lines is said by their positions. -/
theorem after_start_eq_readingAt (marker : Char) (lines : List Text) :
    Reading.start.after marker 1 lines = readingAt marker lines := by
  induction lines using List.reverseRecOn with
  | nil => rfl
  | append_singleton lines line ih =>
    rw [Reading.after_append, ih, readingAt_concat, Nat.add_comm 1 lines.length]
    rfl

/-! ## What lines give -/

theorem functionAt?_of_headerAt?_none {h : Nat} (hname : headerAt? marker lines h = none) :
    functionAt? marker lines h = none := by
  rw [functionAt?, hname]
  rfl

theorem functionAt?_of_no_closing {h : Nat}
    (hfirst : (lines.drop (h + 1)).findIdx? (isClosing marker) = none) :
    functionAt? marker lines h = none := by
  rw [functionAt?, hfirst]
  cases headerAt? marker lines h <;> rfl

/-- A header gives its function if no other header stands before the first closing brace. -/
theorem functionAt?_of_closing {h i : Nat} {name : Text}
    (hname : headerAt? marker lines h = some name)
    (hfirst : (lines.drop (h + 1)).findIdx? (isClosing marker) = some i) :
    functionAt? marker lines h =
      if (slice lines (h + 1) (h + 1 + i)).all (fun line => (header? marker line).isNone) then
        some (functionBetween marker lines name h (h + 1 + i))
      else none := by
  rw [functionAt?, hname]
  show Option.bind ((lines.drop (h + 1)).findIdx? (isClosing marker)) _ = _
  rw [hfirst]
  show Option.bind (guard _) _ = _
  split
  next hall => rw [hall]; rfl
  next hall => rw [Bool.not_eq_true] at hall; rw [hall]; rfl

theorem functionAt?_concat_length (marker : Char) (lines : List Text) (line : Text) :
    functionAt? marker (lines ++ [line]) lines.length = none := by
  apply functionAt?_of_no_closing
  rw [List.drop_eq_nil_of_le (by simp only [List.length_append, List.length_singleton, Nat.le_refl])]
  rfl

/-- Lines behind the first closing brace do not matter to the header before it. -/
theorem functionAt?_append_of_closing {h i : Nat}
    (hfirst : (lines.drop (h + 1)).findIdx? (isClosing marker) = some i) (more : List Text) :
    functionAt? marker (lines ++ more) h = functionAt? marker lines h := by
  obtain ⟨hi, -⟩ := List.findIdx?_eq_some_iff_findIdx_eq.mp hfirst
  rw [List.length_drop] at hi
  have hlt : h < lines.length := by omega
  cases hname : headerAt? marker lines h with
  | none =>
    rw [functionAt?_of_headerAt?_none hname,
      functionAt?_of_headerAt?_none ((headerAt?_append hlt more).trans hname)]
  | some name =>
    have hfirst' : ((lines ++ more).drop (h + 1)).findIdx? (isClosing marker) = some i := by
      rw [List.drop_append_of_le_length (Nat.succ_le_of_lt hlt), List.findIdx?_append, hfirst,
        Option.some_or]
    rw [functionAt?_of_closing hname hfirst,
      functionAt?_of_closing ((headerAt?_append hlt more).trans hname) hfirst',
      slice_append (by omega), functionBetween_append (by omega) (by omega)]

/-- A line that is no closing brace gives nothing to the headers before it. -/
theorem functionAt?_concat_of_not_closing {h : Nat} {line : Text} (hh : h < lines.length)
    (hclosing : isClosing marker line = false) :
    functionAt? marker (lines ++ [line]) h = functionAt? marker lines h := by
  cases hfirst : (lines.drop (h + 1)).findIdx? (isClosing marker) with
  | some i => exact functionAt?_append_of_closing hfirst [line]
  | none =>
    rw [functionAt?_of_no_closing hfirst]
    apply functionAt?_of_no_closing
    rw [List.drop_append_of_le_length (Nat.succ_le_of_lt hh), List.findIdx?_append, hfirst,
      List.findIdx?_singleton, hclosing]
    rfl

/-- A closing brace gives its function to the last header, if it is the first behind it. -/
theorem functionAt?_concat_closing {h : Nat} {line : Text} (hh : h < lines.length)
    (hclosing : isClosing marker line = true)
    (hfirst : (lines.drop (h + 1)).findIdx? (isClosing marker) = none) :
    functionAt? marker (lines ++ [line]) h =
      if lastHeader? marker lines lines.length = some h then openFunction? marker lines else none := by
  cases hname : headerAt? marker lines h with
  | none =>
    have hlast : lastHeader? marker lines lines.length ≠ some h := by
      intro hlast
      have hsome := (lastHeader?_eq_some_iff.mp hlast).2.1
      rw [hname] at hsome
      cases hsome
    rw [functionAt?_of_headerAt?_none ((headerAt?_append hh [line]).trans hname), if_neg hlast]
  | some name =>
    have hfirst' : ((lines ++ [line]).drop (h + 1)).findIdx? (isClosing marker) =
        some (lines.length - (h + 1)) := by
      rw [List.drop_append_of_le_length (Nat.succ_le_of_lt hh), List.findIdx?_append, hfirst,
        List.findIdx?_singleton, hclosing, if_pos rfl, Option.map_some, Option.none_or,
        List.length_drop, Nat.zero_add]
    have hend : h + 1 + (lines.length - (h + 1)) = lines.length :=
      Nat.add_sub_cancel' (Nat.succ_le_of_lt hh)
    rw [functionAt?_of_closing ((headerAt?_append hh [line]).trans hname) hfirst', hend,
      slice_append (Nat.le_refl _),
      functionBetween_append (Nat.le_of_lt hh) (Nat.le_refl _)]
    by_cases hlast : lastHeader? marker lines lines.length = some h
    · have hall := all_slice_iff.mpr (lastHeader?_eq_some_iff.mp hlast).2.2
      rw [if_pos hlast, openFunction?_of_lastHeader?_some hlast hname, if_pos hall,
        if_pos (all_not_isClosing_iff.mpr hfirst)]
    · rw [if_neg hlast, if_neg]
      intro hall
      refine hlast (lastHeader?_eq_some_iff.mpr ⟨hh, ?_, all_slice_iff.mp hall⟩)
      rw [hname]
      rfl

/-- A closing brace with no function open gives nothing. -/
theorem functionAt?_concat_of_openFunction?_none {h : Nat} {line : Text} (hh : h < lines.length)
    (hclosing : isClosing marker line = true) (hopen : openFunction? marker lines = none) :
    functionAt? marker (lines ++ [line]) h = functionAt? marker lines h := by
  cases hfirst : (lines.drop (h + 1)).findIdx? (isClosing marker) with
  | some i => exact functionAt?_append_of_closing hfirst [line]
  | none =>
    rw [functionAt?_concat_closing hh hclosing hfirst, functionAt?_of_no_closing hfirst, hopen,
      ite_self]

/-- A list of results over the first numbers grows by one at the end when one number gets a result,
and no later number has one. -/
theorem filterMap_range_of_update {α : Type} {f g : Nat → Option α} {n p : Nat} {b : α} (hp : p < n)
    (hbefore : ∀ h < p, g h = f h) (hf : f p = none) (hg : g p = some b)
    (hbehind : ∀ h, p < h → h < n → f h = none ∧ g h = none) :
    (List.range n).filterMap g = (List.range n).filterMap f ++ [b] := by
  induction n with
  | zero => exact absurd hp (Nat.not_lt_zero p)
  | succ n ih =>
    rw [List.range_succ, List.filterMap_append, List.filterMap_append]
    rcases Nat.lt_succ_iff_lt_or_eq.mp hp with hlt | rfl
    · obtain ⟨hfn, hgn⟩ := hbehind n hlt (Nat.lt_succ_self n)
      rw [ih hlt fun h hph hhn => hbehind h hph (Nat.lt_succ_of_lt hhn)]
      simp only [List.filterMap_cons, hfn, hgn, List.filterMap_nil, List.append_nil]
    · have hsame : (List.range p).filterMap g = (List.range p).filterMap f :=
        List.filterMap_congr fun h hh => hbefore h (List.mem_range.mp hh)
      simp only [hsame, List.filterMap_cons, hf, hg, List.filterMap_nil, List.append_nil]

/-- A closing brace with a function open gives that function, behind all that was given before. -/
theorem filterMap_functionAt?_concat_of_openFunction?_some {line : Text} {f : FunctionDoc}
    (hclosing : isClosing marker line = true) (hopen : openFunction? marker lines = some f) :
    (List.range lines.length).filterMap (functionAt? marker (lines ++ [line])) =
      (List.range lines.length).filterMap (functionAt? marker lines) ++ [f] := by
  cases hlast : lastHeader? marker lines lines.length with
  | none =>
    rw [openFunction?_of_lastHeader?_none hlast] at hopen
    cases hopen
  | some p =>
    obtain ⟨hp, hsome, hbehind⟩ := lastHeader?_eq_some_iff.mp hlast
    obtain ⟨name, hname⟩ := Option.isSome_iff_exists.mp hsome
    have hfirst : (lines.drop (p + 1)).findIdx? (isClosing marker) = none := by
      rw [openFunction?_of_lastHeader?_some hlast hname] at hopen
      split at hopen
      next hall => exact all_not_isClosing_iff.mp hall
      next => cases hopen
    refine filterMap_range_of_update hp (fun h hh => ?_) (functionAt?_of_no_closing hfirst) ?_
      fun h hph hh => ?_
    · cases hfirst' : (lines.drop (h + 1)).findIdx? (isClosing marker) with
      | some i => exact functionAt?_append_of_closing hfirst' [line]
      | none =>
        rw [functionAt?_concat_closing (Nat.lt_trans hh hp) hclosing hfirst',
          functionAt?_of_no_closing hfirst', if_neg]
        rw [hlast, Option.some.injEq]
        exact Nat.ne_of_gt hh
    · rw [functionAt?_concat_closing hp hclosing hfirst, if_pos hlast, hopen]
    · have hnone := hbehind h hph hh
      exact ⟨functionAt?_of_headerAt?_none hnone,
        functionAt?_of_headerAt?_none ((headerAt?_append hh [line]).trans hnone)⟩

/-- **The step of the run**: one more line gives the function that it closes. -/
theorem filterMap_functionAt?_concat (marker : Char) (lines : List Text) (line : Text) :
    (List.range (lines ++ [line]).length).filterMap (functionAt? marker (lines ++ [line])) =
      (List.range lines.length).filterMap (functionAt? marker lines) ++
        ((readingAt marker lines).next marker (lines.length + 1) line).2.toList := by
  have hrange : (List.range (lines ++ [line]).length).filterMap
      (functionAt? marker (lines ++ [line])) =
        (List.range lines.length).filterMap (functionAt? marker (lines ++ [line])) := by
    rw [List.length_append, List.length_singleton, List.range_succ, List.filterMap_append]
    simp only [List.filterMap_cons, functionAt?_concat_length, List.filterMap_nil, List.append_nil]
  rw [hrange]
  have hsame : isClosing marker line = false ∨ openFunction? marker lines = none →
      (List.range lines.length).filterMap (functionAt? marker (lines ++ [line])) =
        (List.range lines.length).filterMap (functionAt? marker lines) := by
    intro hor
    refine List.filterMap_congr fun h hh => ?_
    cases hclosing : isClosing marker line with
    | false => exact functionAt?_concat_of_not_closing (List.mem_range.mp hh) hclosing
    | true =>
      refine functionAt?_concat_of_openFunction?_none (List.mem_range.mp hh) hclosing ?_
      exact hor.resolve_left (by simp only [hclosing, Bool.true_eq_false, not_false_eq_true])
  cases hkind : lineKind marker line with
  | closing =>
    have hclosing : isClosing marker line = true := by rw [isClosing, hkind]; rfl
    cases hopen : openFunction? marker lines with
    | none =>
      rw [hsame (.inr hopen)]
      simp only [Reading.next, hkind, readingAt, hopen, Option.toList_none, List.append_nil]
    | some f =>
      rw [filterMap_functionAt?_concat_of_openFunction?_some hclosing hopen]
      simp only [Reading.next, hkind, readingAt, hopen, Option.toList_some]
  | documentation text =>
    rw [hsame (.inl (by rw [isClosing, hkind]; rfl))]
    simp only [Reading.next, hkind, Option.toList_none, List.append_nil]
  | header name =>
    rw [hsame (.inl (by rw [isClosing, hkind]; rfl))]
    simp only [Reading.next, hkind, Option.toList_none, List.append_nil]
  | other =>
    rw [hsame (.inl (by rw [isClosing, hkind]; rfl))]
    simp only [Reading.next, hkind]
    cases (readingAt marker lines).current? <;> rw [Option.toList_none, List.append_nil]

/-- The lines of a run close the functions that their positions give. -/
theorem closedBy_start_eq_filterMap (marker : Char) (lines : List Text) :
    closedBy marker 1 .start lines =
      (List.range lines.length).filterMap (functionAt? marker lines) := by
  induction lines using List.reverseRecOn with
  | nil => rfl
  | append_singleton lines line ih =>
    rw [closedBy_append, ih, after_start_eq_readingAt, filterMap_functionAt?_concat,
      Nat.add_comm 1 lines.length]
    simp only [closedBy, List.append_nil]

/-- **The functions of a script, by position.** In the order of their header lines, they are the
functions that the positions of the script give, and nothing else. -/
theorem functions_eq_filterMap_functionAt? (marker : Char) (script : Text) :
    functions marker script =
      (List.range (trimmedLines script).length).filterMap
        (functionAt? marker (trimmedLines script)) := by
  rw [functions, functionsFrom_eq_closedBy, ← trimmedLines, closedBy_start_eq_filterMap]

end ShellDoc.Script
