import ShellDoc.Proofs.Parameter.Printed
import ShellDoc.Proofs.Section.ClosedForm

/-!
# The form of sections

Which metadata can come out of a comment. The keys are distinct and without white space; the section
`params`, and no other, is a tree of parameters; any other section is running text, whose form comes
from the way in which lines are joined: it does not start with white space, and what it ends with are
the spaces in front of empty lines (`isRunning_foldl_continued`).

The statement is `canonical_sections`, for lines that are trimmed and hold no line feed. The bare
lines of a comment always are (`canonical_metadata`).
-/

namespace ShellDoc.Comment

/-! ## Running text -/

/-- A text without the spaces at its end. Other white space at the end stays. -/
def core (text : Text) : Text :=
  text.rdropWhile (· == ' ')

/-- How many spaces a text ends with. -/
def trailingSpaces (text : Text) : Nat :=
  (text.rtakeWhile (· == ' ')).length

/-- A text that a section may have: on one line, with no white space at its start, and none at its
end but for spaces. -/
def IsRunning (text : Text) : Prop :=
  '\n' ∉ text ∧ text.trimStart = text ∧ (core text).trimEnd = core text

/-- A bare line: trimmed, and one line only. -/
def IsBare (line : Text) : Prop :=
  line.trim = line ∧ '\n' ∉ line

theorem core_append_spaces (text : Text) :
    core text ++ List.replicate (trailingSpaces text) ' ' = text := by
  have hspaces : text.rtakeWhile (· == ' ') = List.replicate (trailingSpaces text) ' ' := by
    refine List.eq_replicate_iff.mpr ⟨rfl, fun c hc => ?_⟩
    exact beq_iff_eq.mp (@List.mem_rtakeWhile_imp Char (· == ' ') text c hc)
  rw [← hspaces]
  exact List.rdropWhile_append_rtakeWhile

theorem core_eq_self {text : Text} (h : text.trimEnd = text) : core text = text := by
  rw [Text.trimEnd_eq_self_iff] at h
  refine List.rdropWhile_eq_self_iff.mpr fun hne hspace => ?_
  have hlast := h _ (List.getLast?_eq_some_getLast hne)
  rw [beq_iff_eq.mp hspace] at hlast
  exact absurd hlast (by decide)

theorem IsBare.isRunning {line : Text} (h : IsBare line) : IsRunning line := by
  obtain ⟨hstart, hend⟩ := Text.trim_eq_self_iff.mp h.1
  refine ⟨h.2, hstart, ?_⟩
  rw [core_eq_self hend, hend]

/-- A bare line continues running text to running text. Behind an empty line the text ends with one
space more, and behind any other line it ends with what the line ends with. -/
theorem isRunning_continued {text line : Text} (htext : IsRunning text) (hline : IsBare line) :
    IsRunning (continued text line) := by
  by_cases hempty : text = []
  · rw [continued, if_pos hempty]
    exact hline.isRunning
  · obtain ⟨hfeed, hstart, hend⟩ := htext
    rw [continued_of_ne_nil hempty]
    refine ⟨?_, ?_, ?_⟩
    · rw [List.mem_append, List.mem_cons, not_or, not_or]
      exact ⟨hfeed, by decide, hline.2⟩
    · rw [Text.trimStart_eq_self_iff] at hstart ⊢
      rwa [List.head?_append_of_ne_nil text hempty]
    · by_cases hblank : line = []
      · have hcore : core (text ++ [' ']) = core text := List.rdropWhile_concat_pos _ _ _ rfl
        rw [hblank, hcore]
        exact hend
      · have htrim : Text.trimEnd (text ++ ' ' :: line) = text ++ ' ' :: line := by
          rw [List.append_cons]
          exact Text.trimEnd_append hblank (Text.trim_eq_self_iff.mp hline.1).2 _
        rw [core_eq_self htrim, htrim]

theorem isRunning_foldl_continued {text : Text} (htext : IsRunning text) {lines : List Text}
    (hlines : ∀ line ∈ lines, IsBare line) : IsRunning (lines.foldl continued text) := by
  induction lines generalizing text with
  | nil => exact htext
  | cons line rest ih =>
    obtain ⟨hline, hrest⟩ := List.forall_mem_cons.mp hlines
    exact ih (isRunning_continued htext hline) hrest

/-! ## Sections -/

/-- A member that a section may give: parameters under their key, running text under any other. Under
the empty key no line is continued, so that the text does not end with spaces. -/
def IsSection : Text × Value → Prop
  | (key, .text content) =>
    (∀ c ∈ key, Text.isSpace c = false) ∧ key ≠ paramsKey ∧ IsRunning content ∧
      (key = [] → content.trimEnd = content)
  | (key, .tree params) => key = paramsKey ∧ Parameter.Canonical params

/-- Metadata that a comment may give. -/
def Canonical (metadata : Tree) : Prop :=
  metadata.keys.Nodup ∧ ∀ m ∈ metadata.toList, IsSection m

theorem parts_of_sectionLine? {line key beside : Text} (hline : '\n' ∉ line)
    (h : sectionLine? line = some (key, beside)) :
    (∀ c ∈ key, Text.isSpace c = false) ∧ IsBare beside := by
  unfold sectionLine? at h
  split at h
  next word hword =>
    cases h
    refine ⟨fun c hc => ?_, Text.trim_trim _, fun hmem => hline ?_⟩
    · have hmem : c ∈ line.takeWhile (!Text.isSpace ·) := by
        rw [hword]
        exact List.mem_cons_of_mem '@' hc
      have hchar := List.all_eq_true.mp List.all_takeWhile c hmem
      rwa [Bool.not_eq_true'] at hchar
    · exact (List.dropWhile_sublist _).mem (Text.mem_of_mem_trim hmem)
  next => cases h

/-- The value of a section fits its key. -/
theorem isSection_sectionValue {key beside : Text} {behind : List Text}
    (hkey : ∀ c ∈ key, Text.isSpace c = false) (hbeside : IsBare beside)
    (hbehind : ∀ line ∈ behind, IsBare line) :
    IsSection (key, sectionValue key beside behind) := by
  unfold sectionValue
  split
  next hparams => exact ⟨hparams, Parameter.canonical_tree 1 behind⟩
  next hparams =>
    refine ⟨hkey, hparams, ?_, fun hempty => ?_⟩
    · rw [← foldl_continued]
      refine isRunning_foldl_continued hbeside.isRunning fun line hline => ?_
      split at hline
      next => exact absurd hline List.not_mem_nil
      next => exact hbehind line ((List.takeWhile_sublist _).mem hline)
    · rw [if_pos hempty, ← foldl_continued]
      exact (Text.trim_eq_self_iff.mp hbeside.1).2

theorem isSection_of_mem_sectionMembers {lines : List Text} (h : ∀ line ∈ lines, IsBare line) :
    ∀ m ∈ sectionMembers lines, IsSection m := by
  induction lines with
  | nil => exact fun m hm => nomatch hm
  | cons line rest ih =>
    obtain ⟨hline, hrest⟩ := List.forall_mem_cons.mp h
    cases hstart : sectionLine? line with
    | none =>
      rw [sectionMembers, hstart]
      exact ih hrest
    | some found =>
      obtain ⟨hkey, hbeside⟩ := parts_of_sectionLine? hline.2 hstart
      rw [sectionMembers, hstart]
      exact List.forall_mem_cons.mpr ⟨isSection_sectionValue hkey hbeside hrest, ih hrest⟩

/-- **The sections of bare lines are canonical metadata.** -/
theorem canonical_sections {lines : List Text} (h : ∀ line ∈ lines, IsBare line) :
    Canonical (sections lines) := by
  rw [sections_eq_ofList]
  exact ⟨Tree.nodup_keys_ofList _,
    Tree.forall_mem_toList_ofList (isSection_of_mem_sectionMembers h)⟩

theorem isBare_of_mem_bareLines {marker : Char} {block line : Text}
    (h : line ∈ bareLines marker block) : IsBare line := by
  obtain ⟨raw, hraw, rfl⟩ := List.mem_map.mp h
  refine ⟨Text.trim_trim _, fun hmem => Text.not_mem_of_mem_splitOn '\n' block raw hraw ?_⟩
  have hdropped := (List.dropWhile_sublist _).mem (Text.mem_of_mem_trim hmem)
  exact (List.dropWhile_sublist _).mem hdropped

/-- The metadata of lines that are joined to a block is that of their bare lines. -/
theorem metadata_join (marker : Char) {lines : List Text} (hne : lines ≠ [])
    (hfeed : ∀ line ∈ lines, '\n' ∉ line) :
    metadata marker (Text.join ['\n'] lines) = sections (lines.map (bareLine marker)) := by
  rw [metadata, bareLines, Text.join, List.splitOn_intercalate '\n' hfeed hne]

/-- **The metadata of a comment is canonical.** -/
theorem canonical_metadata (marker : Char) (block : Text) : Canonical (metadata marker block) :=
  canonical_sections fun _ => isBare_of_mem_bareLines

end ShellDoc.Comment
