import ShellDoc.Proofs.Script.Printed

/-!
# Comment blocks printed

Metadata is printed as a comment block of its own, without a function behind it: each line of a
section stands behind the marker and a space, and an empty line is the marker alone.

Reading such a block again inverts the printing under every marker but the line feed
(`metadata_printedBlock_metadata`), also under white space, and under the characters that start the
lines themselves. What protects a line is the space behind the marker: the run of markers that is
dropped ends there, or, if the marker is white space itself, is trimmed together with that space
(`bareLine_docLine`).
-/

namespace ShellDoc.Comment

open Script (docLine)

/-! ## Printing -/

/-- The lines of a section, none with a space at its end: the key, the running text behind it
without the spaces that it ends with, and an empty line for each of these; or the parameters below
the line of their key. -/
def blockLines : Text × Value → List Text
  | (key, .text content) =>
    ('@' :: (key ++ spaced (core content))) :: List.replicate (trailingSpaces content) []
  | (_, .tree params) => ('@' :: paramsKey) :: Parameter.printed 1 params

/-- Metadata as a comment block. -/
def printedBlock (marker : Char) (metadata : Tree) : Text :=
  Text.join ['\n'] ((metadata.toList.flatMap blockLines).map (docLine marker))

/-- The lines of a block are those of the printed sections, each trimmed. -/
theorem blockLines_eq {m : Text × Value} (h : IsSection m) :
    blockLines m = (sectionLines m).map Text.trim := by
  obtain ⟨key, value⟩ := m
  cases value with
  | text content =>
    obtain ⟨hkey, _, hrun, _⟩ := h
    rw [blockLines, sectionLines, List.map_cons, List.map_replicate, trim_startLine hkey hrun.2.2]
    rfl
  | tree params =>
    rw [blockLines, sectionLines, List.map_cons, Parameter.map_trim_printed 1 h.2]
    rfl

theorem flatMap_blockLines {metadata : Tree} (h : Canonical metadata) :
    metadata.toList.flatMap blockLines = (printed metadata).map Text.trim := by
  rw [printed, List.map_flatMap]
  exact List.flatMap_congr fun m hm => blockLines_eq (h.2 m hm)

/-! ## Marked lines -/

/-- **A line behind the marker and a space is bare again**, whatever the marker is, if white space
does not start it. -/
theorem bareLine_docLine (marker : Char) {text : Text} (h : text.trimStart = text) :
    bareLine marker (docLine marker text) = text.trim := by
  by_cases hspace : Text.isSpace marker = true
  · -- The markers are trimmed with the space behind them, and the text starts with no marker.
    have hmarkers : (docLine marker text).trimStart = (spaced text).trimStart := by
      show Text.trimStart (marker :: marker :: spaced text) = _
      rw [Text.trimStart, List.dropWhile_cons_of_pos hspace, List.dropWhile_cons_of_pos hspace]
      rfl
    have hkept : text.dropWhile (· == marker) = text := by
      refine Text.dropWhile_beq_eq_self fun c hc => Ne.symm ?_
      exact Text.ne_of_isSpace hspace (Text.trimStart_eq_self_iff.mp h c hc)
    rw [bareLine, hmarkers, trimStart_spaced h, hkept]
  · -- The run of markers ends at the space.
    have hkept : (spaced text).dropWhile (· == marker) = spaced text := by
      refine Text.dropWhile_beq_eq_self fun c hc => ?_
      unfold spaced at hc
      split at hc
      · cases hc
      · cases hc
        exact Text.ne_of_isSpace (by decide) (Bool.not_eq_true _ ▸ hspace)
    have hmarkers : (docLine marker text).dropWhile (· == marker) = spaced text := by
      show (marker :: marker :: spaced text).dropWhile (· == marker) = _
      simp only [List.dropWhile_cons, beq_self_eq_true, ↓reduceIte, hkept]
    have hstart : (docLine marker text).trimStart = docLine marker text :=
      Text.trimStart_cons (Bool.not_eq_true _ ▸ hspace) _
    rw [bareLine, hstart, hmarkers, Text.trim, Text.trim, trimStart_spaced h, h]

/-! ## Blocks read back -/

/-- **A printed block is read back.** Metadata without sections is printed as the empty block, which
has one empty line. -/
theorem metadata_printedBlock {marker : Char} (hfeed : marker ≠ '\n') {tree : Tree}
    (h : Canonical tree) : metadata marker (printedBlock marker tree) = tree := by
  by_cases hempty : tree = .empty
  · rw [hempty]
    rfl
  have hlines : ∀ line ∈ tree.toList.flatMap blockLines, IsCommentLine line ∧ line.trim = line := by
    intro line hline
    rw [flatMap_blockLines h] at hline
    obtain ⟨raw, hraw, rfl⟩ := List.mem_map.mp hline
    obtain ⟨m, hm, hraw⟩ := List.mem_flatMap.mp hraw
    exact ⟨(isCommentLine_of_mem_sectionLines (h.2 m hm) raw hraw).trim, Text.trim_trim raw⟩
  have hne : (tree.toList.flatMap blockLines).map (docLine marker) ≠ [] := by
    cases tree with
    | empty => exact absurd rfl hempty
    | member key value rest => cases value <;> exact List.cons_ne_nil _ _
  have hjoined : ∀ line ∈ (tree.toList.flatMap blockLines).map (docLine marker), '\n' ∉ line := by
    intro line hline
    obtain ⟨text, htext, rfl⟩ := List.mem_map.mp hline
    exact Script.not_mem_docLine hfeed (hlines text htext).1.1
  have hbare : ∀ line ∈ tree.toList.flatMap blockLines,
      (bareLine marker ∘ docLine marker) line = line := by
    intro line hline
    obtain ⟨hcomment, htrim⟩ := hlines line hline
    exact (bareLine_docLine marker hcomment.trimStart_eq).trans htrim
  rw [printedBlock, metadata_join marker hne hjoined, List.map_map, List.map_congr_left hbare,
    List.map_id', flatMap_blockLines h, sections_printed h]

/-- **Reading a block, printing its metadata, and reading that again** gives the same metadata, the
order of keys included, for every block and every marker but the line feed. -/
theorem metadata_printedBlock_metadata {marker : Char} (hfeed : marker ≠ '\n') (block : Text) :
    metadata marker (printedBlock marker (metadata marker block)) = metadata marker block :=
  metadata_printedBlock hfeed (canonical_metadata marker block)

/-- A block under the marker `-`, which parameters start with too: a text that ends with two spaces,
a key that starts with an at sign, nested parameters, and a line of dashes alone. -/
def dashBlock : Text :=
  ("-- @about copies\n-\n---\n-- @params\n-- -@from where\n-- --@file f\n-- -\n-- @@see\n" ++
    "a  b").toList

theorem metadata_printedBlock_metadata_dashBlock :
    '-' ≠ '\n' ∧
      printedBlock '-' (metadata '-' dashBlock) =
        "-- @about copies\n--\n--\n-- @params\n-- -@from\n-- --@file f\n-- @@see a  b".toList ∧
      metadata '-' (printedBlock '-' (metadata '-' dashBlock)) = metadata '-' dashBlock := by
  refine ⟨by decide, by decide +kernel, ?_⟩
  exact metadata_printedBlock_metadata (by decide) dashBlock

end ShellDoc.Comment
