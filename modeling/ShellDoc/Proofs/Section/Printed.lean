import ShellDoc.Proofs.Section.Canonical

/-!
# Sections printed

Metadata is printed section by section. A running text stands behind its key without the spaces at
its end, and an empty line follows for each of them: such a line, read back, adds one space. The
parameters are printed below the line of their key.

The reader of sections inverts this on canonical metadata (`sections_printed`). It reads the
parameters off all lines behind their key, other sections included, so that the inversion rests on
what those lines are: none of them starts with a dash.
-/

namespace ShellDoc.Comment

/-! ## Printing -/

/-- The line that starts a section: its key behind an at sign, and a text behind a space. -/
def startLine (key text : Text) : Text :=
  '@' :: (key ++ ' ' :: text)

/-- The lines of a section. -/
def sectionLines : Text × Value → List Text
  | (key, .text content) =>
    startLine key (core content) :: List.replicate (trailingSpaces content) []
  | (_, .tree params) => ('@' :: paramsKey) :: Parameter.printed 1 params

/-- The lines of all sections. -/
def printed (metadata : Tree) : List Text :=
  metadata.toList.flatMap sectionLines

/-! ## Lines that start sections -/

/-- A text behind a space, and nothing if the text is empty. -/
def spaced (text : Text) : Text :=
  if text = [] then [] else ' ' :: text

/-- The space in front of a text is all that there is to trim at the start. -/
theorem trimStart_spaced {text : Text} (h : text.trimStart = text) :
    (spaced text).trimStart = text := by
  unfold spaced
  split
  next hempty =>
    rw [hempty]
    rfl
  next =>
    rw [Text.trimStart, List.dropWhile_cons_of_pos (by decide)]
    exact h

theorem trimEnd_spaced {text : Text} (h : text.trimStart = text) :
    (spaced text).trimEnd = spaced text.trimEnd := by
  by_cases hempty : text = []
  · rw [hempty]
    rfl
  · have hne : text.trimEnd ≠ [] := Text.trimEnd_ne_nil hempty h
    rw [spaced, spaced, if_neg hempty, if_neg hne]
    exact Text.trimEnd_append_of_ne_nil hne [' ']

/-- Of the line that starts a section no more is trimmed than the space in front of an empty text. -/
theorem trim_startLine {key text : Text} (hkey : ∀ c ∈ key, Text.isSpace c = false)
    (htext : text.trimEnd = text) : (startLine key text).trim = '@' :: (key ++ spaced text) := by
  have hstart : (startLine key text).trimStart = startLine key text :=
    Text.trimStart_cons (by decide) _
  have hword : ∀ c ∈ '@' :: key, Text.isSpace c = false :=
    List.forall_mem_cons.mpr ⟨by decide, hkey⟩
  rw [Text.trim, hstart, spaced, startLine]
  split
  next hempty =>
    have hsplit : '@' :: (key ++ ' ' :: text) = ('@' :: key) ++ [' '] := by
      rw [hempty, List.cons_append]
    rw [hsplit, List.append_nil]
    show List.rdropWhile Text.isSpace ('@' :: key ++ [' ']) = '@' :: key
    rw [List.rdropWhile_concat_pos _ _ _ (by decide)]
    exact Text.trimEnd_eq_self_of_forall hword
  next hne =>
    have hsplit : '@' :: (key ++ ' ' :: text) = ('@' :: key ++ [' ']) ++ text := by
      simp only [List.append_assoc, List.cons_append, List.nil_append]
    rw [hsplit]
    exact Text.trimEnd_append hne htext _

theorem sectionLine?_startLine {key text : Text} (hkey : ∀ c ∈ key, Text.isSpace c = false)
    (htext : text.trim = text) : sectionLine? ('@' :: (key ++ spaced text)) = some (key, text) := by
  have hword : ∀ c ∈ '@' :: key, (!Text.isSpace c) = true := by
    intro c hc
    rcases List.mem_cons.mp hc with rfl | hmem
    · decide
    · rw [hkey c hmem]
      rfl
  have hstop : (spaced text).takeWhile (!Text.isSpace ·) = [] ∧
      (spaced text).dropWhile (!Text.isSpace ·) = spaced text := by
    unfold spaced
    split
    next => exact ⟨rfl, rfl⟩
    next => exact ⟨List.takeWhile_cons_of_neg (by decide), List.dropWhile_cons_of_neg (by decide)⟩
  obtain ⟨hstart, hend⟩ := Text.trim_eq_self_iff.mp htext
  rw [sectionLine?, ← List.cons_append, List.takeWhile_append_of_pos hword,
    List.dropWhile_append_of_pos hword, hstop.1, hstop.2, List.append_nil, Text.trim,
    trimStart_spaced hstart, hend]
  rfl

/-- A line starts no section if it is empty or starts with a dash. -/
theorem sectionLine?_of_head? {line : Text} (h : ∀ c ∈ line.head?, c = '-') :
    sectionLine? line = none := by
  cases line with
  | nil => rfl
  | cons c rest =>
    have hdash : c = '-' := h c rfl
    rw [sectionLine?, hdash, List.takeWhile_cons_of_pos (by decide)]
    rfl

/-! ## Lines behind the first of a section -/

theorem continuation_append_of_none {xs : List Text} (h : ∀ line ∈ xs, sectionLine? line = none)
    (ys : List Text) : continuation (xs ++ ys) = xs ++ continuation ys := by
  induction xs with
  | nil => rfl
  | cons line rest ih =>
    obtain ⟨hline, hrest⟩ := List.forall_mem_cons.mp h
    rw [List.cons_append, continuation_cons_of_none hline, ih hrest, List.cons_append]

theorem sectionMembers_append_of_none {xs : List Text} (h : ∀ line ∈ xs, sectionLine? line = none)
    (ys : List Text) : sectionMembers (xs ++ ys) = sectionMembers ys := by
  induction xs with
  | nil => rfl
  | cons line rest ih =>
    obtain ⟨hline, hrest⟩ := List.forall_mem_cons.mp h
    rw [List.cons_append, sectionMembers, hline]
    exact ih hrest

theorem trim_core {content : Text} (h : IsRunning content) : (core content).trim = core content := by
  obtain ⟨_, hstart, hend⟩ := h
  have hbeginning : core content <+: content := List.rdropWhile_prefix _ content
  exact Text.trim_eq_self_iff.mpr ⟨Text.trimStart_of_isPrefix hbeginning hstart, hend⟩

theorem foldl_continued_replicate {text : Text} (h : text ≠ []) (n : Nat) :
    (List.replicate n []).foldl continued text = text ++ List.replicate n ' ' := by
  induction n generalizing text with
  | zero => exact (List.append_nil text).symm
  | succ n ih =>
    have hnext : text ++ [' '] ≠ [] := List.append_ne_nil_of_left_ne_nil h _
    rw [List.replicate_succ, List.foldl_cons, continued_of_ne_nil h, ih hnext, List.replicate_succ,
      List.append_assoc, List.singleton_append]

/-- Running text is made again from its core and as many empty lines as it ends with spaces. A text
of spaces alone would not be, but it starts with white space. -/
theorem foldl_continued_core {content : Text} (h : IsRunning content) :
    (List.replicate (trailingSpaces content) []).foldl continued (core content) = content := by
  by_cases hcore : core content = []
  · have hspaces := core_append_spaces content
    rw [hcore, List.nil_append] at hspaces
    cases hn : trailingSpaces content with
    | zero =>
      rw [hn] at hspaces
      rw [hcore, ← hspaces]
      rfl
    | succ n =>
      rw [hn, List.replicate_succ] at hspaces
      have hhead := Text.trimStart_eq_self_iff.mp h.2.1 ' ' (by rw [← hspaces]; rfl)
      exact absurd hhead (by decide)
  · rw [foldl_continued_replicate hcore, core_append_spaces]

/-! ## Sections read back -/

/-- A line has no dash at its start when it is empty or starts a printed section. -/
theorem dashes_of_mem_sectionLines {key content : Text} (h : IsSection (key, .text content)) :
    ∀ line ∈ (sectionLines (key, .text content)).map Text.trim, Parameter.dashes line = 0 := by
  obtain ⟨hkey, _, hrun, _⟩ := h
  rw [sectionLines, List.map_cons, List.map_replicate, List.forall_mem_cons]
  refine ⟨?_, fun line hline => ?_⟩
  · rw [Parameter.dashes, Text.trim_trim, trim_startLine hkey hrun.2.2,
      List.takeWhile_cons_of_neg (by decide), List.length_nil]
  · rw [List.eq_of_mem_replicate hline]
    rfl

/-- **One section read back.** Trimmed, the lines of a section are one that starts it and others that
start none. With lines behind them that continue no text, and that start with no dash if the section
is the one of the parameters, the value of the section is the value that was printed. -/
theorem sectionLines_read {m : Text × Value} (h : IsSection m) :
    ∃ first others beside, (sectionLines m).map Text.trim = first :: others ∧
      sectionLine? first = some (m.1, beside) ∧ (∀ line ∈ others, sectionLine? line = none) ∧
      ∀ later, continuation later = [] →
        (m.1 = paramsKey → ∀ line ∈ later, Parameter.dashes line = 0) →
        sectionValue m.1 beside (others ++ later) = m.2 := by
  obtain ⟨key, value⟩ := m
  cases value with
  | text content =>
    obtain ⟨hkey, hparams, hrun, hempty⟩ := h
    have hblank : ∀ line ∈ List.replicate (trailingSpaces content) [], sectionLine? line = none := by
      intro line hline
      rw [List.eq_of_mem_replicate hline]
      rfl
    refine ⟨'@' :: (key ++ spaced (core content)), List.replicate (trailingSpaces content) [],
      core content, ?_, sectionLine?_startLine hkey (trim_core hrun), hblank, ?_⟩
    · rw [sectionLines, List.map_cons, List.map_replicate, trim_startLine hkey hrun.2.2]
      rfl
    · intro later hlater _
      simp only [sectionValue, if_neg hparams, ← foldl_continued]
      split
      next hnil => rw [List.foldl_nil, core_eq_self (hempty hnil)]
      next =>
        rw [continuation_append_of_none hblank, hlater, List.append_nil, foldl_continued_core hrun]
  | tree params =>
    obtain ⟨rfl, hcanonical⟩ := h
    have hlines := Parameter.isPrintedLine_of_mem_printed 1 hcanonical
    refine ⟨'@' :: paramsKey, Parameter.printed 1 params, [], ?_, rfl, ?_, ?_⟩
    · rw [sectionLines, List.map_cons, Parameter.map_trim_printed 1 hcanonical]
      rfl
    · intro line hline
      refine sectionLine?_of_head? fun c hc => ?_
      rw [(hlines line hline).head?_eq Nat.one_pos] at hc
      exact (Option.some.inj hc).symm
    · intro later _ hdashes
      rw [sectionValue, if_pos rfl, Parameter.tree_printed_append Nat.one_pos hcanonical]
      intro line hline
      rw [hdashes rfl line hline]
      exact Nat.one_pos

theorem sectionMembers_printed {ms : List (Text × Value)} (hnodup : (ms.map Prod.fst).Nodup)
    (h : ∀ m ∈ ms, IsSection m) :
    sectionMembers ((ms.flatMap sectionLines).map Text.trim) = ms := by
  induction ms with
  | nil => rfl
  | cons m rest ih =>
    obtain ⟨hm, hrest⟩ := List.forall_mem_cons.mp h
    obtain ⟨hnew, hdistinct⟩ := List.nodup_cons.mp hnodup
    obtain ⟨first, others, beside, hlines, hfirst, hothers, hvalue⟩ := sectionLines_read hm
    have hstop : continuation ((rest.flatMap sectionLines).map Text.trim) = [] := by
      cases rest with
      | nil => rfl
      | cons next rest =>
        obtain ⟨first, others, beside, hlines, hfirst, _⟩ :=
          sectionLines_read (hrest next List.mem_cons_self)
        rw [List.flatMap_cons, List.map_append, hlines, List.cons_append,
          continuation_cons_of_some hfirst]
    have hdashes : m.1 = paramsKey →
        ∀ line ∈ (rest.flatMap sectionLines).map Text.trim, Parameter.dashes line = 0 := by
      intro hparams line hline
      rw [List.map_flatMap] at hline
      obtain ⟨⟨key, value⟩, hmem, hline⟩ := List.mem_flatMap.mp hline
      cases value with
      | text content => exact dashes_of_mem_sectionLines (hrest _ hmem) line hline
      | tree params =>
        -- The parameters have one section only, and this is the one in front.
        have hkey : key = paramsKey := (hrest _ hmem).1
        refine absurd (List.mem_map.mpr ⟨_, hmem, ?_⟩) hnew
        exact hkey.trans hparams.symm
    rw [List.flatMap_cons, List.map_append, hlines, List.cons_append, sectionMembers, hfirst]
    simp only [hvalue _ hstop hdashes, sectionMembers_append_of_none hothers, ih hdistinct hrest]

/-- **Printed sections are read back.** -/
theorem sections_printed {metadata : Tree} (h : Canonical metadata) :
    sections ((printed metadata).map Text.trim) = metadata := by
  rw [sections_eq_ofList, printed, sectionMembers_printed h.1 h.2]
  exact Tree.ofList_toList h.1

/-! ## Comments -/

/-- The lines of a comment, with one empty line for metadata that has no sections. -/
def commentLines (metadata : Tree) : List Text :=
  if metadata.isEmpty then [[]] else printed metadata

/-- A line of a comment: one line, which is empty or starts with an at sign or a dash. -/
def IsCommentLine (line : Text) : Prop :=
  '\n' ∉ line ∧ ∀ c ∈ line.head?, c = '@' ∨ c = '-'

theorem isCommentLine_of_mem_sectionLines {m : Text × Value} (h : IsSection m) :
    ∀ line ∈ sectionLines m, IsCommentLine line := by
  obtain ⟨key, value⟩ := m
  cases value with
  | text content =>
    obtain ⟨hkey, _, hrun, _⟩ := h
    rw [sectionLines, List.forall_mem_cons]
    refine ⟨⟨?_, fun c hc => .inl (Option.some.inj hc).symm⟩, fun line hline => ?_⟩
    · rw [startLine, List.mem_cons, List.mem_append, List.mem_cons]
      rintro (hat | hmem | hspace | hmem)
      · exact absurd hat (by decide)
      · exact absurd (hkey _ hmem) (by decide)
      · exact absurd hspace (by decide)
      · exact hrun.1 ((List.rdropWhile_prefix _ content).mem hmem)
    · rw [List.eq_of_mem_replicate hline]
      exact ⟨List.not_mem_nil, fun c hc => nomatch hc⟩
  | tree params =>
    rw [sectionLines, List.forall_mem_cons]
    refine ⟨⟨by decide, fun c hc => .inl (Option.some.inj hc).symm⟩, fun line hline => ?_⟩
    have hprinted := Parameter.isPrintedLine_of_mem_printed 1 h.2 line hline
    refine ⟨hprinted.not_mem, fun c hc => .inr ?_⟩
    rw [hprinted.head?_eq Nat.one_pos] at hc
    exact (Option.some.inj hc).symm

theorem isCommentLine_of_mem_commentLines {metadata : Tree} (h : Canonical metadata) :
    ∀ line ∈ commentLines metadata, IsCommentLine line := by
  intro line hline
  unfold commentLines at hline
  split at hline
  next =>
    rw [List.mem_singleton.mp hline]
    exact ⟨List.not_mem_nil, fun c hc => nomatch hc⟩
  next =>
    obtain ⟨m, hm, hline⟩ := List.mem_flatMap.mp hline
    exact isCommentLine_of_mem_sectionLines (h.2 m hm) line hline

theorem commentLines_ne_nil (metadata : Tree) : commentLines metadata ≠ [] := by
  cases metadata with
  | empty => exact List.cons_ne_nil _ _
  | member key value rest =>
    cases value with
    | text content => exact List.cons_ne_nil _ _
    | tree params => exact List.cons_ne_nil _ _

theorem IsCommentLine.trimStart_eq {line : Text} (h : IsCommentLine line) :
    line.trimStart = line := by
  refine Text.trimStart_eq_self_iff.mpr fun c hc => ?_
  rcases h.2 c hc with rfl | rfl
  · decide
  · decide

theorem IsCommentLine.trim {line : Text} (h : IsCommentLine line) : IsCommentLine line.trim := by
  refine ⟨fun hmem => h.1 (Text.mem_of_mem_trim hmem), fun c hc => h.2 c ?_⟩
  rw [Text.trim, h.trimStart_eq] at hc
  obtain ⟨dropped, hsplit⟩ := Text.trimEnd_isPrefix line
  rw [← hsplit, List.head?_append, Option.mem_def.mp hc]
  rfl

/-- A trimmed line of a comment is bare under a marker that it does not start with. -/
theorem IsCommentLine.bareLine_eq {marker : Char} (hat : marker ≠ '@') (hdash : marker ≠ '-')
    {line : Text} (h : IsCommentLine line) (htrim : line.trim = line) :
    bareLine marker line = line := by
  have hmarker : line.dropWhile (· == marker) = line := by
    refine Text.dropWhile_beq_eq_self fun c hc => ?_
    rcases h.2 c hc with rfl | rfl
    · exact hat.symm
    · exact hdash.symm
  rw [bareLine, h.trimStart_eq, hmarker, htrim]

/-- **The lines of a comment are read back**, trimmed and joined to a block, under every marker that
they do not start with. -/
theorem metadata_commentLines {marker : Char} (hat : marker ≠ '@') (hdash : marker ≠ '-')
    {tree : Tree} (h : Canonical tree) :
    metadata marker (Text.join ['\n'] ((commentLines tree).map Text.trim)) = tree := by
  have hlines : ∀ line ∈ (commentLines tree).map Text.trim, IsCommentLine line ∧ line.trim = line := by
    intro line hline
    obtain ⟨raw, hraw, rfl⟩ := List.mem_map.mp hline
    exact ⟨(isCommentLine_of_mem_commentLines h raw hraw).trim, Text.trim_trim raw⟩
  have hne : (commentLines tree).map Text.trim ≠ [] :=
    fun hnil => commentLines_ne_nil tree (List.map_eq_nil_iff.mp hnil)
  rw [metadata_join marker hne fun line hline => (hlines line hline).1.1,
    List.map_congr_left fun line hline =>
      (hlines line hline).1.bareLine_eq hat hdash (hlines line hline).2,
    List.map_id', commentLines]
  split
  next hempty =>
    cases tree with
    | empty => rfl
    | member key value rest => exact absurd hempty Bool.false_ne_true
  next => exact sections_printed h

end ShellDoc.Comment
