import ShellDoc.FileTree
import ShellDoc.Proofs.Parameter.Append
import ShellDoc.Proofs.Parameter.Canonical
import Mathlib.Tactic.SplitIfs

/-!
# The grammar of parameter lines

A parameter line is put together from dashes, an at sign, a name, white space, and what stands
beside the name. `IsCut` says this with no word on how to find the parts, and `IsLongestCut` asks
in addition that the name and the white space are as long as they can be.

The reader goes over a line once and takes the longest run of characters at every step. It accepts
a line if there is any way to cut it, and reads off the longest cut (`lineAt?_grammar`). No line is
lost by this, since longer runs only take characters away from the text beside the name, where the
line feeds must not be (`IsCut.exists_isLongestCut`).

What ends a region is not a parameter but the number of dashes. The two agree: a parameter has the
dashes of its depth, whether they are counted in characters or in bytes, so it ends the regions of
its depth. Bare dashes in front of any other text do so as well (`endsRegions_iff`).
-/

namespace ShellDoc.Parameter

/-- The longest run of characters of a kind that a text starts with. -/
def IsLongestRun (p : Char → Bool) (run t : Text) : Prop :=
  (run <+: t ∧ ∀ c ∈ run, p c = true) ∧
    ∀ other, other <+: t → (∀ c ∈ other, p c = true) → other.length ≤ run.length

/-- A text cut into the parts of a parameter line. Each part is of its kind, but need not be as long
as it could be. -/
structure IsCut (t : Text) (depth : Nat) (name gap beside : Text) : Prop where
  text_eq : t = List.replicate depth '-' ++ '@' :: (name ++ (gap ++ beside))
  depth_pos : 1 ≤ depth
  isName : IsName name
  isGap : ∀ c ∈ gap, Text.isSpace c = true
  oneLine : '\n' ∉ beside

/-- The cut whose name is the longest behind the at sign, and whose white space is the longest behind
the name. -/
structure IsLongestCut (t : Text) (depth : Nat) (name gap beside : Text) : Prop
    extends IsCut t depth name gap beside where
  longest_name : IsLongestRun isNameChar name (name ++ (gap ++ beside))
  longest_gap : IsLongestRun Text.isSpace gap (gap ++ beside)

/-- A text that starts with a number of dashes and no more. -/
def StartsWithDashes (depth : Nat) (t : Text) : Prop :=
  ∃ rest, t = List.replicate depth '-' ++ rest ∧ ∀ c ∈ rest.head?, c ≠ '-'

/-- A line that ends the regions of a depth: none that comes up to it goes on. -/
def EndsRegions (depth : Nat) (line : Text) : Prop :=
  ∀ before after, region depth (before ++ line :: after) = region depth before

/-- The number of dashes that the trimmed line starts with, counted in the bytes of its encoding. -/
def dashBytes (line : Text) : Nat :=
  ((encodeUtf8 line.trim).data.toList.takeWhile (· == 0x2D)).length

variable {p : Char → Bool} {run rest t line name gap beside : Text} {depth : Nat} {found : Line}

/-! ## Longest runs -/

theorem isPrefix_takeWhile (hrun : run <+: t) (hkind : ∀ c ∈ run, p c = true) :
    run <+: t.takeWhile p := by
  obtain ⟨rest, rfl⟩ := hrun
  rw [List.takeWhile_append_of_pos hkind]
  exact List.prefix_append run _

theorem isLongestRun_iff : IsLongestRun p run t ↔ t.takeWhile p = run := by
  have hkind : ∀ c ∈ t.takeWhile p, p c = true := fun c hc => List.mem_takeWhile_imp hc
  constructor
  · rintro ⟨⟨hrun, hrunKind⟩, hlongest⟩
    have hlength := hlongest (t.takeWhile p) (List.takeWhile_prefix p) hkind
    exact ((isPrefix_takeWhile hrun hrunKind).eq_of_length_le hlength).symm
  · rintro rfl
    refine ⟨⟨List.takeWhile_prefix p, hkind⟩, fun other hother hotherKind => ?_⟩
    exact (isPrefix_takeWhile hother hotherKind).length_le

theorem IsLongestRun.dropWhile_append (h : IsLongestRun p run (run ++ rest)) :
    (run ++ rest).dropWhile p = rest := by
  have hsplit := List.takeWhile_append_dropWhile (p := p) (l := run ++ rest)
  rw [isLongestRun_iff.mp h] at hsplit
  exact List.append_cancel_left hsplit

/-! ## Dashes -/

theorem startsWithDashes_iff : StartsWithDashes depth line.trim ↔ dashes line = depth := by
  constructor
  · rintro ⟨rest, htext, hrest⟩
    rw [dashes, htext, Text.takeWhile_append, List.length_replicate]
    · intro c hc
      exact beq_iff_eq.mpr (List.eq_of_mem_replicate hc)
    · intro c hc
      exact beq_eq_false_iff_ne.mpr (hrest c hc)
  · rintro rfl
    refine ⟨_, trim_eq_replicate_append line, fun c hc => ?_⟩
    have hhead := List.head?_dropWhile_not (· == '-') line.trim
    rw [Option.mem_def.mp hc] at hhead
    exact beq_eq_false_iff_ne.mp hhead

/-- A character that is no dash does not start with the byte of a dash. Beyond ASCII, first bytes have
their highest bit set. -/
theorem exists_utf8EncodeChar_eq {c : Char} (hc : c ≠ '-') :
    ∃ first rest, String.utf8EncodeChar c = first :: rest ∧ first ≠ 0x2D := by
  have hcode : c.val.toNat ≠ 45 := fun heq => hc (Char.ext (UInt32.toNat_inj.mp heq))
  have hfirst : ∀ n : Nat, n % 256 ≠ 45 → UInt8.ofNat n ≠ 0x2D := by
    intro n hn heq
    rw [← UInt8.toNat_inj, UInt8.toNat_ofNat'] at heq
    exact hn heq
  simp only [String.utf8EncodeChar]
  split_ifs
  all_goals exact ⟨_, _, rfl, hfirst _ (by omega)⟩

/-- Dashes are as many in bytes as they are in characters. -/
theorem dashBytes_eq (line : Text) : dashBytes line = dashes line := by
  have hbytes : (encodeUtf8 line.trim).data.toList = line.trim.flatMap String.utf8EncodeChar :=
    List.toList_data_toByteArray
  rw [dashBytes, hbytes, dashes]
  induction line.trim with
  | nil => rfl
  | cons c rest ih =>
    rw [List.flatMap_cons, List.takeWhile_cons]
    split
    next hc =>
      rw [beq_iff_eq.mp hc]
      exact congrArg (· + 1) ih
    next hc =>
      obtain ⟨first, more, hfirst, hne⟩ := exists_utf8EncodeChar_eq fun heq => hc (beq_iff_eq.mpr heq)
      have hnot : ¬ (first == 0x2D) = true := fun heq => hne (beq_iff_eq.mp heq)
      rw [hfirst, List.cons_append, List.takeWhile_cons, if_neg hnot]
      rfl

/-! ## The ends of regions -/

theorem endsRegions_iff : EndsRegions depth line ↔ dashes line = depth := by
  constructor
  · intro h
    have hends : region depth [line] = [] := h [] []
    rw [region_cons] at hends
    by_contra hne
    rw [if_neg hne] at hends
    exact List.cons_ne_nil _ _ hends
  · intro hline before after
    refine region_append (fun first hfirst => ?_) before
    rw [← Option.some.inj hfirst]
    exact hline

/-- A line of another depth is one more line of the region that comes up to it. -/
theorem region_append_cons_of_dashes_ne (hline : dashes line ≠ depth) {before : List Text}
    (hbefore : region depth before = before) (after : List Text) :
    region depth (before ++ line :: after) = before ++ line :: region depth after := by
  have hall : ∀ l ∈ before, (dashes l != depth) = true := by
    rw [← hbefore]
    exact fun l hl => bne_iff_ne.mpr (dashes_ne_of_mem_region hl)
  rw [region, List.takeWhile_append_of_pos hall, ← region, region_cons, if_neg hline]

/-! ## The parts of a line -/

theorem IsCut.startsWithDashes (h : IsCut t depth name gap beside) : StartsWithDashes depth t := by
  refine ⟨_, h.text_eq, fun c hc => ?_⟩
  rw [← Option.some.inj hc]
  decide

theorem IsCut.dropWhile_dashes (h : IsCut t depth name gap beside) :
    t.dropWhile (· == '-') = '@' :: (name ++ (gap ++ beside)) := by
  rw [h.text_eq, Text.dropWhile_replicate_append]
  exact List.dropWhile_cons_of_neg (by decide)

/-- What is behind the at sign is cut by taking the longest runs one after the other. -/
theorem isLongestCut_runs (hdepth : 1 ≤ depth) {behind : Text}
    (hname : behind.takeWhile isNameChar ≠ [])
    (hline : '\n' ∉ Text.trimStart (behind.dropWhile isNameChar)) :
    IsLongestCut (List.replicate depth '-' ++ '@' :: behind) depth (behind.takeWhile isNameChar)
      ((behind.dropWhile isNameChar).takeWhile Text.isSpace)
      (Text.trimStart (behind.dropWhile isNameChar)) := by
  have hgap : (behind.dropWhile isNameChar).takeWhile Text.isSpace ++
      Text.trimStart (behind.dropWhile isNameChar) = behind.dropWhile isNameChar :=
    List.takeWhile_append_dropWhile
  have hbehind : behind.takeWhile isNameChar ++ behind.dropWhile isNameChar = behind :=
    List.takeWhile_append_dropWhile
  exact {
    text_eq := by rw [hgap, hbehind]
    depth_pos := hdepth
    isName := ⟨hname, fun c hc => List.mem_takeWhile_imp hc⟩
    isGap := fun c hc => List.mem_takeWhile_imp hc
    oneLine := hline
    longest_name := by rw [hgap, hbehind, isLongestRun_iff]
    longest_gap := by rw [hgap, isLongestRun_iff] }

/-- **A line that can be cut has a longest cut.** The name can only grow if there is no white space
behind it, and then the text beside it gets shorter. -/
theorem IsCut.exists_isLongestCut (h : IsCut t depth name gap beside) :
    ∃ name gap beside, IsLongestCut t depth name gap beside := by
  have hdrop : (name ++ (gap ++ beside)).dropWhile isNameChar =
      (gap ++ beside).dropWhile isNameChar := List.dropWhile_append_of_pos h.isName.2
  rw [h.text_eq]
  refine ⟨_, _, _, isLongestCut_runs h.depth_pos (fun hnil => ?_) (fun hfeed => ?_)⟩
  · have hname := isPrefix_takeWhile (List.prefix_append name (gap ++ beside)) h.isName.2
    rw [hnil] at hname
    exact h.isName.1 (List.prefix_nil.mp hname)
  · rw [hdrop] at hfeed
    cases gap with
    | nil =>
      have hsuffix : Text.trimStart (beside.dropWhile isNameChar) <:+ beside :=
        (List.dropWhile_suffix _).trans (List.dropWhile_suffix _)
      exact h.oneLine (hsuffix.mem hfeed)
    | cons c gap =>
      -- The name stops where it did, since no white space can stand in a name.
      have hc : ¬ isNameChar c = true := by
        intro hc
        have hspace := h.isGap c List.mem_cons_self
        rw [isSpace_of_isNameChar hc] at hspace
        exact Bool.noConfusion hspace
      have htrim : Text.trimStart (c :: gap ++ beside) = beside.trimStart :=
        List.dropWhile_append_of_pos h.isGap
      rw [List.cons_append, List.dropWhile_cons_of_neg hc, ← List.cons_append, htrim] at hfeed
      exact h.oneLine ((List.dropWhile_suffix _).mem hfeed)

theorem IsLongestCut.trimStart_append (h : IsLongestCut t depth name gap beside) :
    Text.trimStart (gap ++ beside) = beside :=
  h.longest_gap.dropWhile_append

/-- What stands beside the name of a trimmed line is trimmed. -/
theorem IsLongestCut.trim_beside (h : IsLongestCut line.trim depth name gap beside) :
    beside.trim = beside := by
  have hsuffix : beside <:+ line.trim := by
    rw [h.text_eq]
    refine List.suffix_append_of_suffix (List.suffix_cons_iff.mpr (.inr ?_))
    exact List.suffix_append_of_suffix (List.suffix_append gap beside)
  have hend := (Text.trim_eq_self_iff.mp (Text.trim_trim line)).2
  refine Text.trim_eq_self_iff.mpr ⟨?_, Text.trimEnd_of_isSuffix hsuffix hend⟩
  rw [← h.trimStart_append, Text.trimStart_trimStart]

/-- The reader gives the parts of the longest cut. -/
theorem line?_eq_some_iff :
    line? line = some found ↔
      ∃ gap, IsLongestCut line.trim found.depth found.name gap found.beside := by
  constructor
  · intro h
    obtain ⟨behind, hbehind, hdashes, hname, hbeside, rfl⟩ := exists_of_line? h
    have htrim := trim_eq_replicate_append line
    rw [hbehind] at htrim
    rw [htrim]
    exact ⟨_, isLongestCut_runs (Nat.pos_of_ne_zero hdashes) hname hbeside⟩
  · rintro ⟨gap, hcut⟩
    have hdashes := startsWithDashes_iff.mp hcut.startsWithDashes
    have hname := isLongestRun_iff.mp hcut.longest_name
    have hrest := hcut.longest_name.dropWhile_append
    simp only [line?, hcut.dropWhile_dashes, hdashes, hname, hrest, hcut.trimStart_append]
    exact if_pos ⟨Nat.ne_of_gt hcut.depth_pos, hcut.isName.1, hcut.oneLine⟩

theorem lineAt?_eq_some_iff_isLongestCut :
    lineAt? depth line = some found ↔
      found.depth = depth ∧ ∃ gap, IsLongestCut line.trim depth found.name gap found.beside := by
  rw [lineAt?_eq_some_iff, line?_eq_some_iff, and_comm]
  exact and_congr_right fun hdepth => by rw [hdepth]

/-- A line is a parameter of a depth if it can be cut as one in any way. -/
theorem exists_lineAt?_iff_exists_isCut :
    (∃ found, lineAt? depth line = some found) ↔
      ∃ name gap beside, IsCut line.trim depth name gap beside := by
  constructor
  · rintro ⟨found, hfound⟩
    obtain ⟨_, gap, hcut⟩ := lineAt?_eq_some_iff_isLongestCut.mp hfound
    exact ⟨found.name, gap, found.beside, hcut.toIsCut⟩
  · rintro ⟨_, _, _, hcut⟩
    obtain ⟨name, gap, beside, hlongest⟩ := hcut.exists_isLongestCut
    exact ⟨⟨depth, name, beside⟩, lineAt?_eq_some_iff_isLongestCut.mpr ⟨rfl, gap, hlongest⟩⟩

/-- **The grammar of parameter lines.** The reader accepts a line at a depth if the trimmed line can
be cut into the parts of a parameter in any way, and gives the name and the text of the longest cut.
Then the line has just as many dashes, its text is trimmed, and it ends the regions of that depth.
What ends them are all lines that start with as many dashes, parameters or not. Other lines stay in
the region that comes up to them. Dashes are as many in bytes as in characters. -/
theorem lineAt?_grammar :
    (∀ depth line found, lineAt? depth line = some found ↔
      found.depth = depth ∧ ∃ gap, IsLongestCut line.trim depth found.name gap found.beside) ∧
    (∀ depth line, (∃ found, lineAt? depth line = some found) ↔
      ∃ name gap beside, IsCut line.trim depth name gap beside) ∧
    (∀ depth line found, lineAt? depth line = some found →
      dashes line = depth ∧ found.beside.trim = found.beside ∧ EndsRegions depth line) ∧
    (∀ depth line, EndsRegions depth line ↔ StartsWithDashes depth line.trim) ∧
    (∀ depth line before after, ¬ StartsWithDashes depth line.trim → region depth before = before →
      region depth (before ++ line :: after) = before ++ line :: region depth after) ∧
    ∀ line, dashBytes line = dashes line := by
  refine ⟨fun _ _ _ => lineAt?_eq_some_iff_isLongestCut,
    fun _ _ => exists_lineAt?_iff_exists_isCut, ?_, ?_, ?_, dashBytes_eq⟩
  · intro depth line found hfound
    obtain ⟨_, gap, hcut⟩ := lineAt?_eq_some_iff_isLongestCut.mp hfound
    have hdashes := dashes_of_lineAt? hfound
    exact ⟨hdashes, hcut.trim_beside, endsRegions_iff.mpr hdashes⟩
  · intro depth line
    rw [endsRegions_iff, startsWithDashes_iff]
  · intro depth line before after hline hbefore
    rw [startsWithDashes_iff] at hline
    exact region_append_cons_of_dashes_ne hline hbefore after

/-- A line feed and a wide space behind the name are white space, and the text behind them counts.
Text with a line feed in it is in no way part of a parameter, and dashes in front of prose end a
region all the same. -/
theorem lineAt?_grammar_lineFeeds :
    let line : Text := " --@key\n\u2003.rest\t".toList
    let found : Line := ⟨2, "key".toList, ".rest".toList⟩
    let broken : Text := "--@key two\nlines".toList
    IsLongestCut line.trim 2 found.name "\n\u2003".toList found.beside ∧
      lineAt? 2 line = some found ∧ found.beside.trim = found.beside ∧ dashBytes line = 2 ∧
      EndsRegions 2 line ∧ region 1 ["--".toList, line, "-".toList] = ["--".toList, line] ∧
      (∀ name gap beside, ¬ IsCut broken.trim 2 name gap beside) ∧ EndsRegions 2 broken := by
  intro line found broken
  obtain ⟨haccepts, hcuts, hfits, hends, hpasses, hbytes⟩ := lineAt?_grammar
  have hcut : IsLongestCut line.trim 2 found.name "\n\u2003".toList found.beside := {
    text_eq := by decide
    depth_pos := by decide
    isName := ⟨by decide, List.all_eq_true.mp rfl⟩
    isGap := List.all_eq_true.mp rfl
    oneLine := by decide
    longest_name := isLongestRun_iff.mpr (by decide)
    longest_gap := isLongestRun_iff.mpr (by decide) }
  have hfound : lineAt? 2 line = some found := (haccepts 2 line found).mpr ⟨rfl, _, hcut⟩
  obtain ⟨hdashes, hbeside, hline⟩ := hfits 2 line found hfound
  refine ⟨hcut, hfound, hbeside, (hbytes line).trans hdashes, hline, ?_, ?_, ?_⟩
  · have hone : ¬ StartsWithDashes 1 line.trim := by
      rw [startsWithDashes_iff, hdashes]
      decide
    exact hpasses 1 line ["--".toList] ["-".toList] hone (by decide)
  · intro name gap beside hbroken
    obtain ⟨other, hother⟩ := (hcuts 2 broken).mpr ⟨name, gap, beside, hbroken⟩
    have hnone : lineAt? 2 broken = none := by decide
    rw [hnone] at hother
    cases hother
  · refine (hends 2 broken).mpr ⟨"@key two\nlines".toList, by decide, fun c hc => ?_⟩
    rw [← Option.some.inj hc]
    decide

end ShellDoc.Parameter
