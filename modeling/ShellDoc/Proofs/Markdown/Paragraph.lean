import ShellDoc.Markdown
import ShellDoc.Proofs.Text

/-!
# Paragraphs of pages

A page is a sequence of paragraphs with an empty line behind each (`page_eq_written`): the heading
of the index and its entries, then for each function its heading, its description, and a heading and
a content for each block that is not empty.

The paragraphs can be told from the text (`written_injective`), since a line holds no line feed and a
paragraph no empty line. What the lines say is of no consequence here.
-/

namespace ShellDoc.Markdown

/-! ## Pieces with a mark behind each -/

/-- Pieces are cut out again at a mark that stands behind each of them and in none. -/
theorem splitOn_flatMap_concat {α : Type} [DecidableEq α] (mark : α) {pieces : List (List α)}
    (h : ∀ piece ∈ pieces, mark ∉ piece) :
    (pieces.flatMap (· ++ [mark])).splitOn mark = pieces ++ [[]] := by
  induction pieces with
  | nil => rfl
  | cons piece rest ih =>
    obtain ⟨hpiece, hrest⟩ := List.forall_mem_cons.mp h
    have hsplit : piece.splitOn mark = [piece] := by
      have hone : ∀ p ∈ [piece], mark ∉ p := List.forall_mem_singleton.mpr hpiece
      simpa using List.splitOn_intercalate mark hone (List.cons_ne_nil _ _)
    have hcut := List.splitOnP_append_cons (p := (· == mark)) piece
      (rest.flatMap (· ++ [mark])) (beq_self_eq_true mark)
    rw [List.flatMap_cons, List.append_assoc, List.singleton_append]
    calc (piece ++ mark :: rest.flatMap (· ++ [mark])).splitOn mark
      _ = piece.splitOn mark ++ (rest.flatMap (· ++ [mark])).splitOn mark := hcut
      _ = piece :: rest ++ [[]] := by rw [hsplit, ih hrest, List.singleton_append, List.cons_append]

theorem flatMap_concat_injective {α : Type} [DecidableEq α] (mark : α) {xs ys : List (List α)}
    (hxs : ∀ x ∈ xs, mark ∉ x) (hys : ∀ y ∈ ys, mark ∉ y)
    (h : xs.flatMap (· ++ [mark]) = ys.flatMap (· ++ [mark])) : xs = ys := by
  have hsplit := congrArg (List.splitOn mark) h
  rw [splitOn_flatMap_concat mark hxs, splitOn_flatMap_concat mark hys] at hsplit
  exact List.append_cancel_right hsplit

/-! ## Written paragraphs -/

/-- The text of lines, a line feed behind each. -/
def writtenLines (lines : List Text) : Text :=
  lines.flatMap (· ++ ['\n'])

/-- The text of paragraphs, an empty line behind each. -/
def written (paragraphs : List (List Text)) : Text :=
  writtenLines (paragraphs.flatMap (· ++ [[]]))

/-- Whether lines may stand together: none is empty, and each is one line. -/
def IsParagraph (lines : List Text) : Prop :=
  ∀ line ∈ lines, line ≠ [] ∧ '\n' ∉ line

@[simp] theorem writtenLines_nil : writtenLines [] = [] := rfl

@[simp] theorem written_nil : written [] = [] := rfl

theorem writtenLines_cons (line : Text) (rest : List Text) :
    writtenLines (line :: rest) = line ++ '\n' :: writtenLines rest :=
  List.append_assoc line ['\n'] _

theorem writtenLines_append (xs ys : List Text) :
    writtenLines (xs ++ ys) = writtenLines xs ++ writtenLines ys :=
  List.flatMap_append

theorem written_cons (lines : List Text) (rest : List (List Text)) :
    written (lines :: rest) = writtenLines lines ++ '\n' :: written rest := by
  rw [written, List.flatMap_cons, writtenLines_append, writtenLines_append, List.append_assoc]
  rfl

theorem written_append (ps qs : List (List Text)) : written (ps ++ qs) = written ps ++ written qs := by
  rw [written, List.flatMap_append, writtenLines_append, ← written, ← written]

theorem written_flatMap {α : Type} (f : α → List (List Text)) (xs : List α) :
    written (xs.flatMap f) = xs.flatMap fun x => written (f x) := by
  induction xs with
  | nil => rfl
  | cons x rest ih => rw [List.flatMap_cons, written_append, ih, List.flatMap_cons]

/-- **Paragraphs can be told from their text.** -/
theorem written_injective {ps qs : List (List Text)} (hps : ∀ p ∈ ps, IsParagraph p)
    (hqs : ∀ q ∈ qs, IsParagraph q) (h : written ps = written qs) : ps = qs := by
  have hempty : ∀ {paragraphs : List (List Text)}, (∀ p ∈ paragraphs, IsParagraph p) →
      ∀ p ∈ paragraphs, [] ∉ p := fun hall p hp hmem => (hall p hp [] hmem).1 rfl
  have hfeed : ∀ {paragraphs : List (List Text)}, (∀ p ∈ paragraphs, IsParagraph p) →
      ∀ line ∈ paragraphs.flatMap (· ++ [[]]), '\n' ∉ line := by
    intro paragraphs hall line hline
    obtain ⟨p, hp, hline⟩ := List.mem_flatMap.mp hline
    rcases List.mem_append.mp hline with hline | hline
    · exact (hall p hp line hline).2
    · rw [List.mem_singleton.mp hline]
      exact List.not_mem_nil
  have hlines := flatMap_concat_injective '\n' (hfeed hps) (hfeed hqs) h
  exact flatMap_concat_injective ([] : Text) (hempty hps) (hempty hqs) hlines

/-- Lines that are joined have a line feed behind each if one is added. -/
theorem join_concat_feed {lines : List Text} (h : lines ≠ []) :
    Text.join ['\n'] lines ++ ['\n'] = writtenLines lines := by
  induction lines with
  | nil => exact absurd rfl h
  | cons line rest ih =>
    cases rest with
    | nil => rw [Text.join, List.intercalate_singleton, writtenLines, List.flatMap_singleton]
    | cons next rest =>
      rw [writtenLines, List.flatMap_cons, ← writtenLines, ← ih (List.cons_ne_nil next rest),
        Text.join, List.intercalate_cons_cons, List.append_assoc, ← Text.join]

/-! ## The paragraphs of a page -/

/-- The paragraphs of a block: its heading and its content, or nothing. -/
def headed (heading : String) (lines : List Text) : List (List Text) :=
  if lines = [] then [] else [[heading.toList], lines]

/-- The lines of the body of a function, set as a block of code. -/
def codeLines (f : FunctionDoc) : List Text :=
  if f.body = [] then [] else "\x60\x60\x60zsh".toList :: (f.body.splitOn '\n' ++ ["\x60\x60\x60".toList])

/-- The description of a function, if there is one to speak of. -/
def description? (f : FunctionDoc) : Option Text :=
  (f.text? "description".toList).filter (· ≠ [])

/-- The heading of the chapter of a function. -/
def chapterHeading (f : FunctionDoc) : List Text :=
  ["### ".toList ++ f.name]

/-- The paragraphs of the chapter of a function behind its heading and its description. -/
def blocks (f : FunctionDoc) : List (List Text) :=
  headed "#### Usage" (usageLines f) ++
    (headed "#### Parameters" (parameterLines f) ++
      (headed "#### Details" (detailLines f) ++ headed "#### Source" (codeLines f)))

/-- The paragraphs of the chapter of a function. -/
def chapterParagraphs (f : FunctionDoc) : List (List Text) :=
  chapterHeading f :: ((description? f).toList.map ([·]) ++ blocks f)

/-- The index entry of a function, without the line feed. -/
def entry (f : FunctionDoc) : Text :=
  "* [".toList ++ f.name ++ "](#".toList ++ anchor f.name ++ ")".toList

/-- The paragraphs of a page. -/
def pageParagraphs (functions : List FunctionDoc) : List (List Text) :=
  if functions = [] then []
  else ["## Index".toList] :: functions.map entry :: functions.flatMap chapterParagraphs

/-- A heading is a line with an empty line behind it. -/
theorem writtenLines_heading (heading : Text) (rest : List Text) :
    writtenLines ((heading ++ ['\n']) :: rest) = written [[heading]] ++ writtenLines rest := by
  simp only [writtenLines_cons, written_cons, writtenLines_nil, written_nil, List.append_assoc,
    List.cons_append, List.nil_append]

theorem writtenLines_block (heading : String) {lines content : List Text}
    (hnil : lines = [] ↔ content = []) (h : writtenLines lines = writtenLines content) :
    writtenLines (block heading lines) = written (headed heading content) := by
  unfold block headed
  by_cases hlines : lines = []
  · rw [if_pos hlines, if_pos (hnil.mp hlines)]
    rfl
  · rw [if_neg hlines, if_neg (hnil.not.mp hlines), List.cons_append, writtenLines_heading,
      writtenLines_append, h, written_cons, written_cons, written_cons]
    simp only [List.append_assoc]
    rfl

theorem writtenLines_descriptionLines (f : FunctionDoc) :
    writtenLines (descriptionLines f) = written ((description? f).toList.map ([·])) := by
  unfold descriptionLines description?
  rcases f.text? "description".toList with _ | _ | ⟨c, rest⟩
  · rfl
  · rfl
  · rfl

/-- The body of a function is its lines joined. -/
theorem writtenLines_sourceLines (f : FunctionDoc) :
    (sourceLines f = [] ↔ codeLines f = []) ∧
      writtenLines (sourceLines f) = writtenLines (codeLines f) := by
  unfold sourceLines codeLines
  by_cases hbody : f.body = []
  · simp only [if_pos hbody, and_self]
  · have hlines : writtenLines [f.body] = writtenLines (f.body.splitOn '\n') := by
      rw [← join_concat_feed (List.splitOn_ne_nil '\n' f.body), Text.join,
        List.intercalate_splitOn, writtenLines, List.flatMap_singleton]
    simp only [if_neg hbody, List.cons_ne_nil, true_and]
    rw [writtenLines_cons, writtenLines_cons _ (_ ++ _), writtenLines_append, ← hlines,
      ← writtenLines_append, List.singleton_append]

theorem writtenLines_blocks (f : FunctionDoc) :
    writtenLines (block "#### Usage" (usageLines f) ++ (block "#### Parameters" (parameterLines f) ++
      (block "#### Details" (detailLines f) ++ block "#### Source" (sourceLines f)))) =
      written (blocks f) := by
  obtain ⟨hnil, hsource⟩ := writtenLines_sourceLines f
  rw [writtenLines_append, writtenLines_append, writtenLines_append,
    writtenLines_block "#### Source" hnil hsource]
  simp only [writtenLines_block _ Iff.rfl rfl, ← written_append]
  rfl

theorem chapter_eq_written (f : FunctionDoc) :
    chapter f ++ ['\n'] = written (chapterParagraphs f) := by
  have hlines : chapter f ++ ['\n'] =
      writtenLines (("### ".toList ++ f.name ++ ['\n']) :: (descriptionLines f ++
        (block "#### Usage" (usageLines f) ++ (block "#### Parameters" (parameterLines f) ++
          (block "#### Details" (detailLines f) ++ block "#### Source" (sourceLines f)))))) := by
    rw [chapter, join_concat_feed (by simp)]
    simp only [List.append_assoc, List.cons_append, List.nil_append]
  rw [hlines, writtenLines_heading, writtenLines_append, writtenLines_descriptionLines,
    writtenLines_blocks, ← written_append, ← written_append]
  rfl

/-- A page is its paragraphs. -/
theorem page_eq_written (functions : List FunctionDoc) :
    page functions = written (pageParagraphs functions) := by
  have hchapters : (functions.flatMap fun f => chapter f ++ ['\n']) =
      written (functions.flatMap chapterParagraphs) := by
    simp only [chapter_eq_written, written_flatMap]
  have hentries : functions.flatMap indexLine = writtenLines (functions.map entry) := by
    rw [writtenLines, List.flatMap_map]
    congr 1
    funext f
    simp only [indexLine, entry, List.append_assoc]
    rfl
  rw [page, hchapters, index, pageParagraphs]
  split
  next hnil =>
    rw [hnil]
    rfl
  next =>
    rw [written_cons, written_cons, hentries]
    simp only [List.append_assoc]
    rfl

end ShellDoc.Markdown
