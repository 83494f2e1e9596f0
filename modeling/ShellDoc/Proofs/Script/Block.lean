import ShellDoc.Proofs.Script.Run
import ShellDoc.Proofs.Section.Canonical

/-!
# Documentation in a script and as a block

The documentation of a function is read twice: the reader of scripts takes the doubled marker off
each line, and the reader of comments then takes off the run of markers that is left. A comment block
is read once, its whole run of markers going at a time. The two agree on a line
(`bareLine_trimStart_iff`) unless the doubled marker is followed by white space and then by the
marker again. Where no line has this form, a function gets the metadata that its documentation has
as a block (`functions_documentation`).
-/

namespace ShellDoc.Script

variable {marker : Char}

/-- A line in which white space stands between the doubled marker and a further marker. -/
def IsRemarked (marker : Char) (line : Text) : Prop :=
  ∃ spaces rest, spaces ≠ [] ∧ (∀ c ∈ spaces, Text.isSpace c = true) ∧
    line = Comment.docMark marker ++ (spaces ++ marker :: rest)

/-! ## One line -/

/-- Behind the doubled marker, a line of that form has white space and then the marker. -/
theorem isRemarked_append_iff (hspace : Text.isSpace marker = false) {rest : Text} :
    IsRemarked marker (Comment.docMark marker ++ rest) ↔
      rest.trimStart ≠ rest ∧ rest.trimStart.head? = some marker := by
  constructor
  · rintro ⟨spaces, behind, hne, hspaces, hline⟩
    have hrest : rest = spaces ++ marker :: behind := List.append_cancel_left hline
    have htrim : rest.trimStart = marker :: behind := by
      rw [hrest, Text.trimStart, List.dropWhile_append_of_pos hspaces]
      exact Text.trimStart_cons hspace behind
    rw [htrim]
    refine ⟨fun heq => hne ?_, rfl⟩
    rw [hrest] at heq
    exact List.self_eq_append_left.mp heq
  · rintro ⟨hne, hhead⟩
    obtain ⟨behind, hbehind⟩ := List.head?_eq_some_iff.mp hhead
    have hsplit : rest.takeWhile Text.isSpace ++ marker :: behind = rest := by
      rw [← hbehind]
      exact List.takeWhile_append_dropWhile
    refine ⟨rest.takeWhile Text.isSpace, behind, fun hnil => hne ?_, ?_, ?_⟩
    · rw [hnil, List.nil_append] at hsplit
      rw [hbehind, hsplit]
    · exact fun c hc => List.all_eq_true.mp List.all_takeWhile c hc
    · rw [hsplit]

/-- A line has the same bare line when it is trimmed first. -/
theorem bareLine_trim (hspace : Text.isSpace marker = false) (line : Text) :
    Comment.bareLine marker line.trim = Comment.bareLine marker line := by
  obtain ⟨spaces, hsplit, hspaces⟩ : ∃ spaces, line.trimStart = line.trim ++ spaces ∧
    ∀ c ∈ spaces, Text.isSpace c = true := Text.exists_append_spaces line.trimStart
  have hkept : spaces.dropWhile (· == marker) = spaces := by
    refine Text.dropWhile_beq_eq_self fun c hc => ?_
    exact Text.ne_of_isSpace (hspaces c (List.mem_of_head? hc)) hspace
  have hdrop : line.trimStart.dropWhile (· == marker) =
      line.trim.dropWhile (· == marker) ++ spaces := by
    rw [hsplit, List.dropWhile_append]
    split
    next hnil => rw [List.isEmpty_iff.mp hnil, hkept, List.nil_append]
    next => rfl
  have hstart : line.trim.trimStart = line.trim :=
    Text.trimStart_trimEnd (Text.trimStart_trimStart line)
  rw [Comment.bareLine, Comment.bareLine, hstart, hdrop, Text.trim_append_spaces hspaces]

/-- The bare line of a documentation line lacks the doubled marker and the markers behind it. -/
theorem bareLine_of_trim_eq (hspace : Text.isSpace marker = false) {line rest : Text}
    (h : line.trim = Comment.docMark marker ++ rest) :
    Comment.bareLine marker line = Text.trim (rest.dropWhile (· == marker)) := by
  have hstart : line.trim.trimStart = line.trim :=
    Text.trimStart_trimEnd (Text.trimStart_trimStart line)
  rw [← bareLine_trim hspace, Comment.bareLine, hstart, h]
  simp only [Comment.docMark, List.cons_append, List.nil_append, List.dropWhile_cons,
    beq_self_eq_true, ↓reduceIte]

/-- **One line read twice**: what is left of it behind the doubled marker has the bare line of the
whole, but for the lines of one form. In these the second reading takes off a marker that belongs to
the text. -/
theorem bareLine_trimStart_iff (hspace : Text.isSpace marker = false) {line rest : Text}
    (h : line.trim = Comment.docMark marker ++ rest) :
    Comment.bareLine marker rest.trimStart = Comment.bareLine marker line ↔
      ¬ IsRemarked marker line.trim := by
  rw [bareLine_of_trim_eq hspace h, h, isRemarked_append_iff hspace, Comment.bareLine,
    Text.trimStart_trimStart]
  by_cases hstart : rest.trimStart = rest
  · rw [hstart]
    exact iff_of_true rfl fun hremarked => hremarked.1 rfl
  have hkept : rest.dropWhile (· == marker) = rest := by
    refine Text.dropWhile_beq_eq_self fun c hc heq => hstart ?_
    refine Text.trimStart_eq_self_iff.mpr fun d hd => ?_
    rw [Option.some.inj (hd.symm.trans hc), heq]
    exact hspace
  have hend : rest.trimStart.trimEnd = rest.trimStart := by
    have htrimmed := (Text.trim_eq_self_iff.mp (Text.trim_trim line)).2
    refine Text.trimEnd_of_isSuffix (t := line.trim) ?_ htrimmed
    rw [h]
    exact (List.dropWhile_suffix _).trans (List.suffix_append _ _)
  rw [hkept, Text.trim, Text.trim, hend]
  cases hrest : rest.trimStart with
  | nil => exact iff_of_true rfl fun hremarked => Option.some_ne_none _ hremarked.2.symm
  | cons c behind =>
    rw [hrest] at hend hstart
    by_cases hc : c = marker
    · subst hc
      refine iff_of_false (fun heq => ?_) fun hno => hno ⟨hstart, rfl⟩
      -- The marker at the front is gone, so that too few characters are left.
      have hshort : (Text.trim ((c :: behind).dropWhile (· == c))).length ≤ behind.length := by
        simp only [List.dropWhile_cons, beq_self_eq_true, ↓reduceIte]
        exact ((Text.trim_sublist _).trans (List.dropWhile_sublist _)).length_le
      rw [Text.trim, heq, List.length_cons] at hshort
      omega
    · have hfirst : (c :: behind).dropWhile (· == marker) = c :: behind := by
        refine Text.dropWhile_beq_eq_self fun d hd => ?_
        rwa [← Option.some.inj hd]
      refine iff_of_true ?_ fun hremarked => hc (Option.some.inj hremarked.2)
      rw [hfirst, ← hrest, Text.trimStart_trimStart, hrest, hend]

/-- A header is one if the doubled marker does not start it. -/
theorem lineKind_of_headerName? {line name : Text} (hmark : ¬ Comment.docMark marker <+: line)
    (h : headerName? line = some name) : lineKind marker line = .header name := by
  have hnone : (Comment.docMark marker).isPrefixOf? line = none := by
    refine Option.eq_none_iff_forall_ne_some.mpr fun rest hrest => hmark ⟨rest, ?_⟩
    exact List.append_eq_of_isPrefixOf?_eq_some hrest
  rw [lineKind, hnone, h]

/-! ## A block and a function -/

/-- A line that the two readings of documentation agree on. -/
def IsPlainDocumentation (marker : Char) (line : Text) : Prop :=
  '\n' ∉ line ∧ Comment.docMark marker <+: line.trim ∧ ¬ IsRemarked marker line.trim

/-- What waits for a header after the lines of a block has the bare lines of the block. -/
theorem exists_stored (hspace : Text.isSpace marker = false) {lines : List Text}
    (h : ∀ line ∈ lines, IsPlainDocumentation marker line) :
    ∃ stored : List Text,
      (lines.map Text.trim).map (lineKind marker) = stored.map LineKind.documentation ∧
        stored.map (Comment.bareLine marker) = lines.map (Comment.bareLine marker) ∧
        ∀ text ∈ stored, '\n' ∉ text := by
  induction lines with
  | nil => exact ⟨[], rfl, rfl, fun text htext => nomatch htext⟩
  | cons line lines ih =>
    obtain ⟨⟨hfeed, ⟨rest, hrest⟩, hform⟩, hlines⟩ := List.forall_mem_cons.mp h
    obtain ⟨stored, hkinds, hbare, hstored⟩ := ih hlines
    refine ⟨Text.trimStart rest :: stored, ?_, ?_,
      List.forall_mem_cons.mpr ⟨fun hmem => ?_, hstored⟩⟩
    · rw [List.map_cons, List.map_cons, lineKind_of_trim_eq hrest.symm, hkinds, List.map_cons]
    · rw [List.map_cons, List.map_cons, (bareLine_trimStart_iff hspace hrest.symm).mpr hform, hbare]
    · apply hfeed
      apply Text.mem_of_mem_trim
      rw [← hrest]
      exact List.mem_append_right _ ((List.dropWhile_sublist _).mem hmem)

/-- **A block in front of a function** gives it the metadata that it has as a block. -/
theorem functions_documentation (hspace : Text.isSpace marker = false) {lines : List Text}
    (hne : lines ≠ []) (hlines : ∀ line ∈ lines, IsPlainDocumentation marker line)
    {header name : Text} (hfeed : '\n' ∉ header)
    (hmark : ¬ Comment.docMark marker <+: header.trim)
    (hname : headerName? header.trim = some name) :
    functions marker (Text.join ['\n'] (lines ++ [header, ['}']])) =
      [⟨name, lines.length + 1, [], some (Comment.metadata marker (Text.join ['\n'] lines))⟩] := by
  obtain ⟨stored, hkinds, hbare, hstored⟩ := exists_stored hspace hlines
  have hstoredNe : stored ≠ [] := by
    rintro rfl
    exact hne (List.map_eq_nil_iff.mp hbare.symm)
  have hmetadata : metadataOf? marker stored =
      some (Comment.metadata marker (Text.join ['\n'] lines)) := by
    rw [metadataOf?, if_neg hstoredNe, Comment.metadata_join marker hstoredNe hstored, hbare,
      Comment.metadata_join marker hne fun line hline => (hlines line hline).1]
  have hsplit : (Text.join ['\n'] (lines ++ [header, ['}']])).splitOn '\n' =
      lines ++ [header, ['}']] := by
    have hne : lines ++ [header, ['}']] ≠ [] :=
      List.append_ne_nil_of_right_ne_nil _ (List.cons_ne_nil _ _)
    refine List.splitOn_intercalate '\n' ?_ hne
    rw [List.forall_mem_append, List.forall_mem_cons, List.forall_mem_singleton]
    exact ⟨fun line hline => (hlines line hline).1, hfeed, by decide⟩
  obtain ⟨hclosed, hafter⟩ := documentation_read hkinds 1 .start
  have hheader : ∀ number, Reading.next marker number header.trim ⟨stored, none⟩ =
      (⟨[], some ⟨name, number, [], metadataOf? marker stored⟩⟩, none) := by
    intro number
    rw [Reading.next, lineKind_of_headerName? hmark hname]
  have hbrace : ∀ number f, Reading.next marker number (Text.trim ['}']) ⟨[], some f⟩ =
      (.start, some f) := by
    intro number f
    have htrim : Text.trim ['}'] = ['}'] := by decide
    rw [htrim, Reading.next, lineKind_brace]
  rw [functions, functionsFrom_eq_closedBy, hsplit, List.map_append, closedBy_append, hclosed,
    hafter, List.length_map, Nat.add_comm 1]
  simp only [Reading.start, List.nil_append, List.map_cons, List.map_nil, closedBy, hheader, hbrace,
    hmetadata, Option.toList_none, Option.toList_some, List.append_nil]

/-- **A script and a block agree on documentation**: lines of it, a header, and a closing brace give
one function, with the metadata that the lines have as a block. The form of line that is left out is
the only one on which the two readings differ. -/
theorem documentation_as_block (hspace : Text.isSpace marker = false) :
    (∀ (lines : List Text) (header name : Text), lines ≠ [] →
      (∀ line ∈ lines, '\n' ∉ line ∧ Comment.docMark marker <+: line.trim ∧
        ¬ IsRemarked marker line.trim) →
      '\n' ∉ header → ¬ Comment.docMark marker <+: header.trim →
      headerName? header.trim = some name →
      functions marker (Text.join ['\n'] (lines ++ [header, ['}']])) =
        [⟨name, lines.length + 1, [], some (Comment.metadata marker (Text.join ['\n'] lines))⟩]) ∧
    ∀ line : Text, Comment.docMark marker <+: line.trim →
      ∃ stored, lineKind marker line.trim = .documentation stored ∧
        (Comment.bareLine marker stored = Comment.bareLine marker line ↔
          ¬ IsRemarked marker line.trim) := by
  constructor
  · intro lines header name hne hlines hfeed hmark hname
    exact functions_documentation hspace hne hlines hfeed hmark hname
  · rintro line ⟨rest, hrest⟩
    exact ⟨Text.trimStart rest, lineKind_of_trim_eq hrest.symm,
      bareLine_trimStart_iff hspace hrest.symm⟩

/-- Documentation under the marker `a`, which names and keys may hold too: behind a run of three,
with a tab behind the doubled marker, and with the marker in a text. -/
def letterLines : List Text :=
  ["  aaa @about  cats".toList, "aa\tor dogs".toList, "aa@params".toList, "aa -@a  a b".toList]

theorem documentation_as_block_letterLines :
    Text.isSpace 'a' = false ∧
      (∀ line ∈ letterLines, '\n' ∉ line ∧ Comment.docMark 'a' <+: line.trim ∧
        ¬ IsRemarked 'a' line.trim) ∧
      functions 'a' (Text.join ['\n'] (letterLines ++ ["function all \x7b".toList, ['}']])) =
        [⟨"all".toList, 5, [],
          some (Comment.metadata 'a' (Text.join ['\n'] letterLines))⟩] ∧
      ∃ stored, lineKind 'a' "aa ab".toList = .documentation stored ∧
        Comment.bareLine 'a' stored ≠ Comment.bareLine 'a' "aa ab".toList := by
  have hspace : Text.isSpace 'a' = false := by decide
  have hplain : ∀ line ∈ letterLines, '\n' ∉ line ∧ Comment.docMark 'a' <+: line.trim ∧
      ¬ IsRemarked 'a' line.trim := by
    have hfeed : ∀ line ∈ letterLines, '\n' ∉ line := by decide
    have hform : ∀ line ∈ letterLines, ∃ rest, line.trim = Comment.docMark 'a' ++ rest ∧
        ¬ (Text.trimStart rest ≠ rest ∧ (Text.trimStart rest).head? = some 'a') := by
      rw [letterLines, List.forall_mem_cons, List.forall_mem_cons, List.forall_mem_cons,
        List.forall_mem_singleton]
      exact ⟨⟨"a @about  cats".toList, by decide⟩, ⟨"\tor dogs".toList, by decide⟩,
        ⟨"@params".toList, by decide⟩, ⟨" -@a  a b".toList, by decide⟩⟩
    intro line hline
    obtain ⟨rest, hrest, hno⟩ := hform line hline
    refine ⟨hfeed line hline, ⟨rest, hrest.symm⟩, ?_⟩
    rw [hrest, isRemarked_append_iff hspace]
    exact hno
  obtain ⟨hblock, hline⟩ := documentation_as_block hspace
  refine ⟨hspace, hplain, ?_, ?_⟩
  · exact hblock letterLines _ _ (by decide) hplain (by decide) (by decide) (by decide)
  · obtain ⟨stored, hstored, hiff⟩ := hline "aa ab".toList (by decide)
    refine ⟨stored, hstored, fun heq => hiff.mp heq ?_⟩
    exact ⟨[' '], ['b'], List.cons_ne_nil _ _, List.forall_mem_singleton.mpr rfl, by decide⟩

end ShellDoc.Script
