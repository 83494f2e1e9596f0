import ShellDoc.Proofs.Script.Run

/-!
# Bodies

The body of a function has a rule that looks at all of it again for each line: the line goes on a new
line, and the whole is trimmed (`accumulatedBody`). The reader looks at the line alone
(`extendBody`). Both come to the same, since a body of trimmed lines is always trimmed itself
(`trim_extendBody`), so that the rule has nothing to trim but the line break in front of the first
line, or behind the last if the new line is empty (`trim_append_line`).
-/

namespace ShellDoc.Script

variable {marker : Char} {body line : Text} {lines : List Text}

/-! ## One line -/

/-- A line break in front of a trimmed text, or behind it, is trimmed away, and one inside is not. -/
theorem trim_append_line (hbody : body.trim = body) (hline : line.trim = line) :
    Text.trim (body ++ '\n' :: line) = extendBody body line := by
  have hspaces : ∀ c ∈ ['\n'], Text.isSpace c = true := List.forall_mem_singleton.mpr (by decide)
  rw [extendBody]
  by_cases hempty : line = []
  · rw [if_pos hempty, hempty, Text.trim_append_spaces hspaces, hbody]
  · rw [if_neg hempty]
    by_cases hfirst : body = []
    · rw [if_pos hfirst, hfirst, List.nil_append]
      exact (Text.trim_spaces_append hspaces line).trans hline
    · rw [if_neg hfirst]
      obtain ⟨hstart, _⟩ := Text.trim_eq_self_iff.mp hbody
      obtain ⟨_, hend⟩ := Text.trim_eq_self_iff.mp hline
      refine Text.trim_eq_self_iff.mpr ⟨?_, ?_⟩
      · rw [Text.trimStart_eq_self_iff, List.head?_append_of_ne_nil _ hfirst]
        exact Text.trimStart_eq_self_iff.mp hstart
      · rw [List.append_cons]
        exact Text.trimEnd_append hempty hend _

/-- A trimmed line leaves a trimmed body trimmed. -/
theorem trim_extendBody (hbody : body.trim = body) (hline : line.trim = line) :
    (extendBody body line).trim = extendBody body line := by
  rw [← trim_append_line hbody hline, Text.trim_trim]

theorem prefix_extendBody (body line : Text) : body <+: extendBody body line := by
  rw [extendBody]
  split
  next => exact List.prefix_refl body
  next =>
    split
    next hfirst => exact hfirst ▸ List.nil_prefix
    next => exact List.prefix_append body _

/-! ## All lines -/

/-- The body of a function by its rule: each line goes on a new line, and the whole is trimmed. -/
def accumulatedBody (lines : List Text) : Text :=
  lines.foldl (fun body line => Text.trim (body ++ '\n' :: line)) []

/-- Behind a trimmed body the rule and the reader come to the same, and the body stays trimmed. -/
theorem foldl_trim_eq_foldl_extendBody (hlines : ∀ line ∈ lines, line.trim = line)
    (hbody : body.trim = body) :
    lines.foldl (fun body line => Text.trim (body ++ '\n' :: line)) body =
        lines.foldl extendBody body ∧
      (lines.foldl extendBody body).trim = lines.foldl extendBody body := by
  induction lines generalizing body with
  | nil => exact ⟨rfl, hbody⟩
  | cons line rest ih =>
    obtain ⟨hline, hrest⟩ := List.forall_mem_cons.mp hlines
    rw [List.foldl_cons, List.foldl_cons, trim_append_line hbody hline]
    exact ih hrest (trim_extendBody hbody hline)

theorem accumulatedBody_eq (hlines : ∀ line ∈ lines, line.trim = line) :
    accumulatedBody lines = lines.foldl extendBody [] :=
  (foldl_trim_eq_foldl_extendBody hlines (by rfl)).1

theorem trim_accumulatedBody (hlines : ∀ line ∈ lines, line.trim = line) :
    (accumulatedBody lines).trim = accumulatedBody lines := by
  rw [accumulatedBody_eq hlines]
  exact (foldl_trim_eq_foldl_extendBody hlines (by rfl)).2

/-- What has been accumulated stays in front of what later lines add. -/
theorem prefix_foldl_extendBody (body : Text) (lines : List Text) :
    body <+: lines.foldl extendBody body := by
  induction lines generalizing body with
  | nil => exact List.prefix_refl body
  | cons line rest ih => exact (prefix_extendBody body line).trans (ih (extendBody body line))

theorem accumulatedBody_prefix {earlier later : List Text}
    (hlines : ∀ line ∈ earlier ++ later, line.trim = line) :
    accumulatedBody earlier <+: accumulatedBody (earlier ++ later) := by
  rw [accumulatedBody_eq hlines,
    accumulatedBody_eq fun line hline => hlines line (List.mem_append_left later hline),
    List.foldl_append]
  exact prefix_foldl_extendBody _ later

/-- The lines of a body are the lines given that are not empty. -/
theorem splitOn_accumulatedBody (hlines : ∀ line ∈ lines, line.trim = line)
    (hfeed : ∀ line ∈ lines, '\n' ∉ line) (hne : accumulatedBody lines ≠ []) :
    (accumulatedBody lines).splitOn '\n' = lines.filter (· ≠ []) := by
  rw [accumulatedBody_eq hlines, foldl_extendBody] at hne ⊢
  refine List.splitOn_intercalate '\n' (fun line hline => ?_) ?_
  · exact hfeed line (List.mem_filter.mp hline).1
  · intro hnil
    rw [hnil] at hne
    exact hne rfl

/-- A closing brace behind other lines reports the open function with the body that they have made. -/
theorem functionsFrom_otherLines
    (hlines : ∀ line ∈ lines, line.trim = line ∧ lineKind marker line = .other) (number : Nat)
    (pending : List Text) (f : FunctionDoc) (rest : List Text) :
    functionsFrom marker number ⟨pending, some f⟩ (lines ++ ['}'] :: rest) =
      { f with body := lines.foldl extendBody f.body } ::
        functionsFrom marker (number + lines.length + 1) .start rest := by
  obtain ⟨hclosed, hafter⟩ := otherLines_read (fun line hline => (hlines line hline).2) number
    pending f
  have htrim : lines.map Text.trim = lines := by
    rw [List.map_congr_left fun line hline => (hlines line hline).1, List.map_id']
  have hbrace : Reading.next marker (number + lines.length) ['}']
      ⟨pending, some { f with body := lines.foldl extendBody f.body }⟩ =
        (.start, some { f with body := lines.foldl extendBody f.body }) := by
    rw [Reading.next, lineKind_brace]
  rw [functionsFrom_eq_closedBy, functionsFrom_eq_closedBy, List.map_append, List.map_cons, htrim,
    closedBy_append, hclosed, hafter, List.nil_append]
  show closedBy marker (number + lines.length) _ (['}'] :: rest.map Text.trim) = _
  rw [closedBy, hbrace, Option.toList_some, List.singleton_append]

/-- **A body is accumulated by its rule.** Trimmed lines that are no documentation, headers or closing
braces leave the open function with the body that the rule makes of them, and close nothing; a brace
behind them reports the function with this body. The body is trimmed, none of its lines is empty, and
what earlier lines have made of it stays in front of what later lines add. -/
theorem otherLines_read_accumulatedBody
    (hlines : ∀ line ∈ lines, line.trim = line ∧ lineKind marker line = .other) {f : FunctionDoc}
    (hstart : f.body = []) (number : Nat) (pending : List Text) :
    closedBy marker number ⟨pending, some f⟩ lines = [] ∧
      Reading.after marker number ⟨pending, some f⟩ lines =
        ⟨pending, some { f with body := accumulatedBody lines }⟩ ∧
      (∀ rest, functionsFrom marker number ⟨pending, some f⟩ (lines ++ ['}'] :: rest) =
        { f with body := accumulatedBody lines } ::
          functionsFrom marker (number + lines.length + 1) .start rest) ∧
      (accumulatedBody lines).trim = accumulatedBody lines ∧
      ((∀ line ∈ lines, '\n' ∉ line) → accumulatedBody lines ≠ [] →
        [] ∉ (accumulatedBody lines).splitOn '\n') ∧
      ∀ earlier later, lines = earlier ++ later →
        accumulatedBody earlier <+: accumulatedBody lines := by
  have htrim : ∀ line ∈ lines, line.trim = line := fun line hline => (hlines line hline).1
  obtain ⟨hclosed, hafter⟩ := otherLines_read (fun line hline => (hlines line hline).2) number
    pending f
  have hbody : lines.foldl extendBody f.body = accumulatedBody lines := by
    rw [hstart, accumulatedBody_eq htrim]
  refine ⟨hclosed, hbody ▸ hafter, fun rest => ?_, trim_accumulatedBody htrim,
    fun hfeed hne hmem => ?_, ?_⟩
  · rw [functionsFrom_otherLines hlines, hbody]
  · rw [splitOn_accumulatedBody htrim hfeed hne] at hmem
    exact of_decide_eq_true (List.mem_filter.mp hmem).2 rfl
  · rintro earlier later rfl
    exact accumulatedBody_prefix htrim

/-- The lines of a body with an empty line, a line break without a feed, and a wide blank inside. -/
def unevenBody : List Text :=
  [[], "if a; then".toList, [], "b\rc".toList, "x\u2003y".toList, []]

/-- An open function collects them, the empty ones left out. -/
theorem otherLines_read_accumulatedBody_unevenBody :
    (∀ line ∈ unevenBody, line.trim = line ∧ lineKind '#' line = .other) ∧
      Reading.after '#' 2 ⟨[], some ⟨['f'], 1, [], none⟩⟩ unevenBody =
        ⟨[], some ⟨['f'], 1, "if a; then\nb\rc\nx\u2003y".toList, none⟩⟩ := by
  have hlines : ∀ line ∈ unevenBody, line.trim = line ∧ lineKind '#' line = .other := by decide
  obtain ⟨_, hafter, _⟩ := otherLines_read_accumulatedBody hlines
    (rfl : (⟨['f'], 1, [], none⟩ : FunctionDoc).body = []) 2 []
  have hbody : accumulatedBody unevenBody = "if a; then\nb\rc\nx\u2003y".toList := by decide
  rw [hbody] at hafter
  exact ⟨hlines, hafter⟩

end ShellDoc.Script
