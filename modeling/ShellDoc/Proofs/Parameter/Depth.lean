import ShellDoc.Proofs.FileTree.Entry
import ShellDoc.Proofs.Parameter.Noise
import ShellDoc.Proofs.Text
import Mathlib.Algebra.Group.Nat.Defs
import Mathlib.Logic.Relation

/-!
# How deep levels go

The reader of a level calls itself for the lines below each parameter, one level deeper. A call is
only made behind a line that has all the dashes of its own level. So the levels go one step beyond
the longest run of dashes at most, whatever the level that was asked for, and a depth that is
counted in a machine word never runs over (`wordTree_eq_and_calls_bounded`).

The lines of a call are among those it was made for (`lines_subset_of_reaches`). This carries the
bound from the first call to all calls below it.
-/

namespace ShellDoc.Parameter

/-! ## Calls -/

/-- What a call of the reader is made for: a depth, and the lines to read at it. -/
structure Level where
  depth : Nat
  lines : List Text

/-- The parameters of a level, each with the call that reads what stands below it. -/
def entries (depth : Nat) : List Text → List (Line × Level)
  | [] => []
  | line :: rest =>
    match lineAt? depth line with
    | none => entries depth rest
    | some found => (found, ⟨depth + 1, region depth rest⟩) :: entries depth rest

/-- One call is made by another one. -/
def Level.Calls (level below : Level) : Prop :=
  ∃ found, (found, below) ∈ entries level.depth level.lines

/-- What is read at a level comes from its parameters and from the calls for them. -/
theorem members_eq_map_entries (depth : Nat) (lines : List Text) :
    members depth lines = (entries depth lines).map fun (found, below) =>
      (found.name, value found.beside (tree below.depth below.lines)) := by
  induction lines with
  | nil =>
    rw [members]
    rfl
  | cons line rest ih =>
    cases hline : lineAt? depth line with
    | none =>
      simp only [entries, hline]
      rw [members_cons_of_none hline, ih]
    | some found =>
      simp only [entries, hline]
      rw [members_cons_of_some hline, ih, List.map_cons]

theorem exists_of_mem_entries {depth : Nat} {lines : List Text} {found : Line} {below : Level}
    (h : (found, below) ∈ entries depth lines) :
    ∃ before line after, lines = before ++ line :: after ∧ lineAt? depth line = some found ∧
      below = ⟨depth + 1, region depth after⟩ := by
  induction lines with
  | nil => cases h
  | cons line rest ih =>
    have hrest : (found, below) ∈ entries depth rest → ∃ before line' after,
        line :: rest = before ++ line' :: after ∧ lineAt? depth line' = some found ∧
          below = ⟨depth + 1, region depth after⟩ := by
      intro hmem
      obtain ⟨before, line', after, rfl, hline', hbelow⟩ := ih hmem
      exact ⟨line :: before, line', after, rfl, hline', hbelow⟩
    cases hline : lineAt? depth line with
    | none =>
      simp only [entries, hline] at h
      exact hrest h
    | some other =>
      simp only [entries, hline] at h
      rcases List.mem_cons.mp h with heq | hmem
      · cases heq
        exact ⟨[], line, rest, rfl, hline, rfl⟩
      · exact hrest hmem

namespace Level

variable {level below : Level}

/-- **What one call does**: it goes one level deeper, behind a line with the dashes of the level that
it comes from, and takes only lines behind that line. -/
theorem Calls.step (h : level.Calls below) :
    below.depth = level.depth + 1 ∧ (∃ line ∈ level.lines, dashes line = level.depth) ∧
      below.lines ⊆ level.lines ∧ below.lines.length < level.lines.length := by
  obtain ⟨depth, lines⟩ := level
  obtain ⟨found, hmem⟩ := h
  obtain ⟨before, line, after, rfl, hline, rfl⟩ := exists_of_mem_entries hmem
  have hafter : after.Sublist (before ++ line :: after) :=
    (List.sublist_cons_self line after).trans (List.sublist_append_right before _)
  refine ⟨rfl, ⟨line, ?_, dashes_of_lineAt? hline⟩, ?_, ?_⟩
  · exact List.mem_append_right before List.mem_cons_self
  · exact ((List.takeWhile_sublist _).trans hafter).subset
  · have hregion := length_region_le depth after
    simp only [List.length_append, List.length_cons]
    omega

/-- All calls that follow from one take their lines from it. -/
theorem lines_subset_of_reaches {start : Level} (h : Relation.ReflTransGen Calls start level) :
    level.lines ⊆ start.lines := by
  induction h with
  | refl => exact List.Subset.refl _
  | tail _ hcall ih => exact List.Subset.trans hcall.step.2.2.1 ih

end Level

/-! ## Machine words -/

/-- Reads a parameter line of a depth that is a machine word. -/
def wordLineAt? (depth : UInt64) (line : Text) : Option Line :=
  (line? line).filter (·.depth.toUInt64 == depth)

/-- The lines up to the first whose dashes, counted in a machine word, are `depth`. -/
def wordRegion (depth : UInt64) (lines : List Text) : List Text :=
  lines.takeWhile fun line => (dashes line).toUInt64 != depth

/-- The parameters of a depth that is a machine word. The depth of the next level wraps around. -/
def wordMembers (depth : UInt64) : List Text → List (Text × Value)
  | [] => []
  | line :: rest =>
    match wordLineAt? depth line with
    | none => wordMembers depth rest
    | some found =>
      (found.name, value found.beside (.ofList (wordMembers (depth + 1) (wordRegion depth rest)))) ::
        wordMembers depth rest
termination_by lines => lines.length
decreasing_by
  · simp
  · exact Nat.lt_succ_of_le (List.takeWhile_sublist _).length_le
  · simp

/-- The tree of parameters, with depths that are machine words. -/
def wordTree (depth : UInt64) (lines : List Text) : Tree :=
  .ofList (wordMembers depth lines)

variable {depth : UInt64} {line : Text} {lines : List Text}

theorem toUInt64_eq_iff {n : Nat} (h : n < 2 ^ 63) : n.toUInt64 = depth ↔ n = depth.toNat := by
  have hsize : n < UInt64.size := Nat.lt_trans h (by decide)
  rw [← UInt64.toNat_inj, Nat.toUInt64, UInt64.toNat_ofNat_of_lt' hsize]

theorem wordLineAt?_eq (h : dashes line < 2 ^ 63) :
    wordLineAt? depth line = lineAt? depth.toNat line := by
  rw [wordLineAt?, lineAt?]
  cases hline : line? line with
  | none => rfl
  | some found =>
    have hdepth : found.depth < 2 ^ 63 := by
      rw [depth_of_line? hline]
      exact h
    have hword : (found.depth.toUInt64 == depth) = (found.depth == depth.toNat) := by
      rw [Bool.eq_iff_iff, beq_iff_eq, beq_iff_eq]
      exact toUInt64_eq_iff hdepth
    rw [Option.filter_some, Option.filter_some, hword]

theorem wordRegion_eq (h : ∀ line ∈ lines, dashes line < 2 ^ 63) :
    wordRegion depth lines = region depth.toNat lines := by
  induction lines with
  | nil => rfl
  | cons line rest ih =>
    obtain ⟨hline, hrest⟩ := List.forall_mem_cons.mp h
    have ih := ih hrest
    rw [wordRegion] at ih
    rw [wordRegion, region_cons, List.takeWhile_cons, ih]
    simp only [bne_iff_ne, ne_eq, toUInt64_eq_iff hline, ite_not]

/-- **Words do not run over.** A next level is only read behind a line with `depth` dashes, so that
the depth is one of those that a line can have. -/
theorem wordMembers_eq (h : ∀ line ∈ lines, dashes line < 2 ^ 63) :
    wordMembers depth lines = members depth.toNat lines := by
  induction depth, lines using wordMembers.induct with
  | case1 depth => rw [wordMembers, members]
  | case2 depth line rest hline ih =>
    obtain ⟨hfirst, hrest⟩ := List.forall_mem_cons.mp h
    have hline' := hline
    rw [wordLineAt?_eq hfirst] at hline'
    rw [wordMembers, hline, members_cons_of_none hline']
    exact ih hrest
  | case3 depth line rest found hline ihRegion ihRest =>
    obtain ⟨hfirst, hrest⟩ := List.forall_mem_cons.mp h
    have hline' := hline
    rw [wordLineAt?_eq hfirst] at hline'
    -- The line was found, so it has `depth` dashes, and those are fewer than a word can count.
    have hdepth : (depth + 1).toNat = depth.toNat + 1 := by
      have hdashes := dashes_of_lineAt? hline'
      rw [UInt64.toNat_add, UInt64.toNat_one]
      omega
    have hregion : ∀ line ∈ wordRegion depth rest, dashes line < 2 ^ 63 :=
      fun line hmem => hrest line ((List.takeWhile_sublist _).subset hmem)
    have hbelow := ihRegion hregion
    rw [hdepth, wordRegion_eq hrest] at hbelow
    rw [wordMembers, hline, members_cons_of_some hline', tree, ihRest hrest, wordRegion_eq hrest,
      ← hbelow]

/-! ## Bytes -/

theorem length_le_utf8Size (t : Text) : t.length ≤ utf8Size t := by
  induction t with
  | nil => exact Nat.le_refl 0
  | cons c rest ih =>
    have hfirst : utf8Size [c] = c.utf8Size := Nat.zero_add _
    have hpos := c.utf8Size_pos
    rw [← List.singleton_append, FileTree.utf8Size_append, hfirst, List.length_append, List.length_singleton]
    omega

theorem dashes_le_utf8Size (line : Text) : dashes line ≤ utf8Size line := by
  calc dashes line
    _ ≤ line.trim.length := (List.takeWhile_sublist _).length_le
    _ ≤ line.length := (Text.trim_sublist line).length_le
    _ ≤ utf8Size line := length_le_utf8Size line

/-- **Depths do not run over.** For lines of fewer than `2 ^ 63` bytes, from whatever depth the reader
starts: what it reads comes from the parameters of a level and from the calls for them. Each call, at
any level, takes fewer lines than the one that makes it, and its depth is at most one more than the
dashes of one of the lines, and so a machine word. With depths that are machine words the reader
gives the same tree. -/
theorem wordTree_eq_and_calls_bounded (lines : List Text) (h : ∀ line ∈ lines, utf8Size line < 2 ^ 63)
    (depth : UInt64) :
    (∀ level : Level, members level.depth level.lines =
      (entries level.depth level.lines).map fun (found, below) =>
        (found.name, value found.beside (tree below.depth below.lines))) ∧
    (∀ level below : Level, Relation.ReflTransGen Level.Calls ⟨depth.toNat, lines⟩ level →
      level.Calls below → below.lines.length < level.lines.length ∧
        (∃ line ∈ lines, below.depth ≤ dashes line + 1) ∧ below.depth < 2 ^ 64) ∧
    wordTree depth lines = tree depth.toNat lines := by
  have hdashes : ∀ line ∈ lines, dashes line < 2 ^ 63 :=
    fun line hline => Nat.lt_of_le_of_lt (dashes_le_utf8Size line) (h line hline)
  refine ⟨fun level => members_eq_map_entries level.depth level.lines, ?_, ?_⟩
  · intro level below hreaches hcall
    obtain ⟨hdepth, ⟨line, hmem, hline⟩, _, hshorter⟩ := hcall.step
    have hfrom : line ∈ lines := Level.lines_subset_of_reaches hreaches hmem
    have hbound := hdashes line hfrom
    exact ⟨hshorter, ⟨line, hfrom, by omega⟩, by omega⟩
  · rw [wordTree, wordMembers_eq hdashes, tree]

/-- A level with another one below it, and the greatest depth that is a machine word. -/
theorem wordTree_eq_and_calls_bounded_greatest :
    let lines : List Text := ["--@a".toList, "---@b one".toList, "-- note".toList, "---@lost".toList]
    (∀ line ∈ lines, utf8Size line < 2 ^ 63) ∧
      Level.Calls ⟨2, lines⟩ ⟨3, ["---@b one".toList]⟩ ∧
      Level.Calls ⟨3, ["---@b one".toList]⟩ ⟨4, []⟩ ∧
      (∃ line ∈ lines, 4 ≤ dashes line + 1) ∧
      wordTree 2 lines =
        .ofList [("a".toList, .tree (.ofList [("b".toList, .text "one".toList)]))] ∧
      wordTree 18446744073709551615 lines = .empty := by
  intro lines
  have hsize : ∀ line ∈ lines, utf8Size line < 2 ^ 63 := by decide
  have hfirst : Level.Calls ⟨2, lines⟩ ⟨3, ["---@b one".toList]⟩ :=
    ⟨⟨2, "a".toList, []⟩, List.mem_cons_self⟩
  have hsecond : Level.Calls ⟨3, ["---@b one".toList]⟩ ⟨4, []⟩ :=
    ⟨⟨3, "b".toList, "one".toList⟩, List.mem_cons_self⟩
  obtain ⟨_, hcalls, htree⟩ := wordTree_eq_and_calls_bounded lines hsize 2
  obtain ⟨_, hbound, _⟩ := hcalls _ _ (.single hfirst) hsecond
  refine ⟨hsize, hfirst, hsecond, hbound, ?_, ?_⟩
  · rw [htree]
    decide +kernel
  · rw [(wordTree_eq_and_calls_bounded lines hsize 18446744073709551615).2.2]
    decide +kernel

end ShellDoc.Parameter
