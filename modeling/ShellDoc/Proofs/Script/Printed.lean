import ShellDoc.Proofs.Script.Canonical
import ShellDoc.Proofs.Section.Printed

/-!
# Functions printed

A function is printed as its documentation, its header, the lines of its body, and a closing brace.
Functions that come out of a script are read back from what is printed for them
(`functions_print_functions`): printing and reading a script a second time changes nothing but the
numbers of the header lines, which are then those of the printed text.

Each part of a printed function is read back by itself, from what the parts before it leave. The
marker may not be white space, a character of names, or the at sign: it would be trimmed, a header
could start with it, or the text behind a mark could.
-/

namespace ShellDoc.Script

/-! ## Printing -/

/-- A documentation line with a text. -/
def docLine (marker : Char) (text : Text) : Text :=
  Comment.docMark marker ++ Comment.spaced text

/-- The documentation lines of a function. -/
def docLines (marker : Char) : Option Tree → List Text
  | none => []
  | some metadata => (Comment.commentLines metadata).map (docLine marker)

/-- The header of a function with a name. -/
def headerLine (name : Text) : Text :=
  name ++ ['(', ')', ' ', '{']

/-- The lines of a body. -/
def bodyLines (body : Text) : List Text :=
  if body = [] then [] else body.splitOn '\n'

/-- The lines of a function. -/
def printedLines (marker : Char) (f : FunctionDoc) : List Text :=
  docLines marker f.metadata? ++ headerLine f.name :: (bodyLines f.body ++ [['}']])

/-- The text of functions, one after another. -/
def print (marker : Char) (functions : List FunctionDoc) : Text :=
  Text.join ['\n'] (functions.flatMap (printedLines marker))

/-- The number of the header line of a function that is printed behind others. -/
def headerNumber (marker : Char) (before : List FunctionDoc) (f : FunctionDoc) : Nat :=
  (before.flatMap (printedLines marker)).length + (docLines marker f.metadata?).length + 1

/-! ## Kinds of printed lines -/

variable {marker : Char}

theorem trim_docLine (hspace : Text.isSpace marker = false) {text : Text}
    (htext : text.trimStart = text) :
    (docLine marker text).trim = docLine marker text.trimEnd := by
  rw [docLine, trim_docMark_append hspace, Comment.trimEnd_spaced htext, docLine]

/-- A documentation line is one, and gives its text trimmed. -/
theorem lineKind_docLine (hspace : Text.isSpace marker = false) {text : Text}
    (htext : text.trimStart = text) :
    lineKind marker (docLine marker text).trim = .documentation text.trim := by
  rw [lineKind_of_trim_eq (trim_docLine hspace htext),
    Comment.trimStart_spaced (Text.trimStart_trimEnd htext), Text.trim, htext]

theorem isSpace_of_isNameChar {c : Char} (h : isNameChar c = true) : Text.isSpace c = false := by
  simp only [isNameChar, Bool.or_eq_true, beq_iff_eq] at h
  rcases h with (((halnum | rfl) | rfl) | rfl) | rfl
  · exact Text.isSpace_of_isAlphanum halnum
  all_goals decide

theorem trim_headerLine {name : Text} (h : IsName name) :
    (headerLine name).trim = headerLine name := by
  have hend : Text.trimEnd (headerLine name) = headerLine name :=
    Text.trimEnd_append (List.cons_ne_nil _ _) (by decide) name
  refine Text.trim_eq_self_iff.mpr ⟨Text.trimStart_eq_self_iff.mpr fun c hc => ?_, hend⟩
  rw [headerLine, List.head?_append_of_ne_nil name h.1] at hc
  exact isSpace_of_isNameChar (h.2 c (List.mem_of_head? hc))

/-- A printed header has the form without the keyword, even if the name is the keyword. -/
theorem plainForm_headerLine {name : Text} (h : IsName name) :
    PlainForm name (headerLine name) := by
  have hparentheses : IsParentheses ['(', ')'] := ⟨[], List.forall_mem_nil _, rfl⟩
  have hopens : OpensPlainly [' ', '{'] := ⟨[' '], [], List.forall_mem_singleton.mpr rfl, rfl⟩
  exact ⟨h, _, ⟨[], _, _, List.forall_mem_nil _, hparentheses, hopens, rfl⟩, rfl⟩

theorem lineKind_headerLine (hmarker : isNameChar marker = false) {name : Text} (h : IsName name) :
    lineKind marker (headerLine name) = .header name := by
  have hmark : (Comment.docMark marker).isPrefixOf? (headerLine name) = none := by
    cases name with
    | nil => exact absurd rfl h.1
    | cons c rest =>
      have hc : marker ≠ c := by
        rintro rfl
        rw [h.2 marker List.mem_cons_self] at hmarker
        exact Bool.noConfusion hmarker
      rw [headerLine, List.cons_append, Comment.docMark, List.isPrefixOf?,
        if_neg (by rwa [beq_iff_eq])]
  rw [lineKind, hmark, headerName?_eq_some_iff.mpr (.inr (plainForm_headerLine h))]

/-! ## Parts read back -/

/-- Printed documentation lines leave their texts, trimmed, and close nothing. -/
theorem docLines_read (hspace : Text.isSpace marker = false) {texts : List Text}
    (htexts : ∀ text ∈ texts, text.trimStart = text) (number : Nat) (reading : Reading) :
    closedBy marker number reading (texts.map fun text => (docLine marker text).trim) = [] ∧
      reading.after marker number (texts.map fun text => (docLine marker text).trim) =
        { reading with pending := reading.pending ++ texts.map Text.trim } := by
  refine documentation_read ?_ number reading
  rw [List.map_map, List.map_map]
  exact List.map_congr_left fun text htext => lineKind_docLine hspace (htexts text htext)

theorem bodyLines_join {pieces : List Text} (h : ∀ piece ∈ pieces, IsBodyLine marker piece) :
    bodyLines (Text.join ['\n'] pieces) = pieces := by
  have hne : ∀ piece ∈ pieces, piece ≠ [] := fun piece hpiece => (h piece hpiece).2.1
  unfold bodyLines
  split
  next hempty => exact ((Text.join_eq_nil_iff hne _).mp hempty).symm
  next hjoin =>
    refine List.splitOn_intercalate '\n' (fun piece hpiece => (h piece hpiece).1.2) ?_
    exact fun hnil => hjoin ((Text.join_eq_nil_iff hne _).mpr hnil)

/-! ## Lines of the printed text -/

theorem not_mem_docLine (hfeed : marker ≠ '\n') {text : Text} (h : '\n' ∉ text) :
    '\n' ∉ docLine marker text := by
  intro hmem
  rcases List.mem_append.mp hmem with hmark | hmem
  · exact hfeed (mem_docMark_iff.mp hmark).symm
  · unfold Comment.spaced at hmem
    split at hmem
    · exact absurd hmem List.not_mem_nil
    · exact h (List.mem_of_ne_of_mem (by decide) hmem)

theorem not_mem_of_mem_printedLines (hspace : Text.isSpace marker = false) {f : FunctionDoc}
    (hf : Canonical marker f) : ∀ line ∈ printedLines marker f, '\n' ∉ line := by
  obtain ⟨pieces, hpieces, hbody⟩ := hf.body
  have hfeed : marker ≠ '\n' := by
    rintro rfl
    exact absurd hspace (by decide)
  have hdocs : ∀ line ∈ docLines marker f.metadata?, '\n' ∉ line := by
    intro line hline
    cases hmetadata : f.metadata? with
    | none =>
      rw [hmetadata] at hline
      exact absurd hline List.not_mem_nil
    | some tree =>
      rw [hmetadata] at hline
      obtain ⟨text, htext, rfl⟩ := List.mem_map.mp hline
      have htree := hf.metadata tree hmetadata
      exact not_mem_docLine hfeed (Comment.isCommentLine_of_mem_commentLines htree text htext).1
  have hheader : '\n' ∉ headerLine f.name := by
    rw [headerLine, List.mem_append, not_or]
    refine ⟨fun hmem => ?_, by decide⟩
    exact absurd (hf.name.2 _ hmem) (by decide)
  rw [printedLines, List.forall_mem_append, List.forall_mem_cons, List.forall_mem_append, hbody,
    bodyLines_join hpieces]
  refine ⟨hdocs, hheader, fun piece hpiece => (hpieces piece hpiece).1.2, ?_⟩
  exact List.forall_mem_singleton.mpr (by decide)

/-- The lines of the printed text are those that are printed, except that no functions make one
empty line. -/
theorem splitOn_print (hspace : Text.isSpace marker = false) {fs : List FunctionDoc}
    (h : ∀ f ∈ fs, Canonical marker f) :
    (print marker fs).splitOn '\n' =
      if fs = [] then [[]] else fs.flatMap (printedLines marker) := by
  split
  next hnil =>
    rw [hnil]
    rfl
  next hne =>
    refine List.splitOn_intercalate '\n' (fun line hline => ?_) fun hnil => hne ?_
    · obtain ⟨f, hf, hline⟩ := List.mem_flatMap.mp hline
      exact not_mem_of_mem_printedLines hspace (h f hf) line hline
    · cases fs with
      | nil => rfl
      | cons f rest =>
        rw [List.flatMap_cons, printedLines] at hnil
        simp only [List.append_assoc, List.append_eq_nil_iff, List.cons_append, List.cons_ne_nil,
          and_false] at hnil

/-- The header of a printed function stands on the line with its number. -/
theorem getElem?_headerNumber (fs : List FunctionDoc) {i : Nat} {f : FunctionDoc}
    (hf : fs[i]? = some f) :
    (fs.flatMap (printedLines marker))[headerNumber marker (fs.take i) f - 1]? =
      some (headerLine f.name) := by
  induction fs generalizing i with
  | nil => cases hf
  | cons first rest ih =>
    cases i with
    | zero =>
      obtain rfl : first = f := Option.some.inj hf
      rw [List.take_zero, headerNumber, List.flatMap_nil, List.length_nil, Nat.zero_add,
        Nat.add_sub_cancel, List.flatMap_cons, printedLines, List.append_assoc,
        List.getElem?_append_right (Nat.le_refl _), Nat.sub_self]
      rfl
    | succ i =>
      have hnumber : headerNumber marker ((first :: rest).take (i + 1)) f - 1 =
          (printedLines marker first).length + (headerNumber marker (rest.take i) f - 1) := by
        simp only [headerNumber, List.take_succ_cons, List.flatMap_cons, List.length_append]
        omega
      rw [hnumber, List.flatMap_cons, List.getElem?_append_right (Nat.le_add_right _ _),
        Nat.add_sub_cancel_left]
      exact ih hf

/-! ## Functions read back -/

section Read

variable (hspace : Text.isSpace marker = false) (hat : marker ≠ '@')
  (hmarker : isNameChar marker = false)

include hspace hat hmarker

/-- The documentation lines of a function leave what gives its metadata to the header. -/
theorem docLines_read_start {metadata? : Option Tree}
    (h : ∀ tree ∈ metadata?, Comment.Canonical tree) (number : Nat) :
    ∃ pending, closedBy marker number .start ((docLines marker metadata?).map Text.trim) = [] ∧
      Reading.start.after marker number ((docLines marker metadata?).map Text.trim) =
        ⟨pending, none⟩ ∧
      metadataOf? marker pending = metadata? := by
  cases metadata? with
  | none => exact ⟨[], rfl, rfl, rfl⟩
  | some tree =>
    have htree : Comment.Canonical tree := h tree rfl
    have hdash : marker ≠ '-' := by
      rintro rfl
      exact absurd hmarker (by decide)
    have hstart : ∀ line ∈ Comment.commentLines tree, line.trimStart = line :=
      fun line hline => (Comment.isCommentLine_of_mem_commentLines htree line hline).trimStart_eq
    obtain ⟨hclosed, hafter⟩ := docLines_read hspace hstart number .start
    refine ⟨(Comment.commentLines tree).map Text.trim, ?_, ?_, ?_⟩
    · rw [docLines, List.map_map]
      exact hclosed
    · rw [docLines, List.map_map]
      exact hafter
    · rw [metadataOf?, if_neg, Comment.metadata_commentLines hat hdash htree]
      exact fun hnil => Comment.commentLines_ne_nil tree (List.map_eq_nil_iff.mp hnil)

/-- **A printed function is read back** as it is, but for the number of its header line, and nothing
of it is left to later lines. -/
theorem printedLines_read {f : FunctionDoc} (hf : Canonical marker f) (number : Nat) :
    closedBy marker number .start ((printedLines marker f).map Text.trim) =
        [{ f with line := number + (docLines marker f.metadata?).length }] ∧
      Reading.start.after marker number ((printedLines marker f).map Text.trim) = .start := by
  obtain ⟨pieces, hpieces, hbody⟩ := hf.body
  obtain ⟨pending, hdocsClosed, hdocsAfter, hmetadata⟩ :=
    docLines_read_start hspace hat hmarker hf.metadata number
  have htrim : (printedLines marker f).map Text.trim =
      (docLines marker f.metadata?).map Text.trim ++ headerLine f.name :: (pieces ++ [['}']]) := by
    rw [printedLines, hbody, bodyLines_join hpieces, List.map_append, List.map_cons,
      List.map_append, trim_headerLine hf.name,
      List.map_congr_left fun piece hpiece => (hpieces piece hpiece).1.1, List.map_id']
    rfl
  let number' := number + (docLines marker f.metadata?).length
  have hheader : Reading.next marker number' (headerLine f.name) ⟨pending, none⟩ =
      (⟨[], some ⟨f.name, number', [], f.metadata?⟩⟩, none) := by
    rw [Reading.next, lineKind_headerLine hmarker hf.name, ← hmetadata]
  obtain ⟨hbodyClosed, hbodyAfter⟩ := otherLines_read (fun piece hpiece => (hpieces piece hpiece).2.2)
    (number' + 1) [] ⟨f.name, number', [], f.metadata?⟩
  have hfold : pieces.foldl extendBody [] = f.body := by
    rw [hbody, foldl_extendBody, List.filter_eq_self.mpr]
    exact fun piece hpiece => decide_eq_true (hpieces piece hpiece).2.1
  have hbrace : ∀ k g, Reading.next marker k ['}'] ⟨[], some g⟩ = (.start, some g) := by
    intro k g
    rw [Reading.next, lineKind_brace]
  rw [htrim, closedBy_append, Reading.after_append, hdocsClosed, hdocsAfter, List.length_map]
  simp only [closedBy, Reading.after, closedBy_append, Reading.after_append, hheader, hbodyClosed,
    hbodyAfter, hfold, hbrace, Option.toList_none, Option.toList_some, List.nil_append,
    List.append_nil, and_self, number']

theorem closedBy_printedLines {fs : List FunctionDoc} (h : ∀ f ∈ fs, Canonical marker f)
    (before : List FunctionDoc) :
    closedBy marker ((before.flatMap (printedLines marker)).length + 1) .start
        ((fs.flatMap (printedLines marker)).map Text.trim) =
      fs.mapIdx fun i f => { f with line := headerNumber marker (before ++ fs.take i) f } := by
  induction fs generalizing before with
  | nil => rfl
  | cons f rest ih =>
    obtain ⟨hf, hrest⟩ := List.forall_mem_cons.mp h
    obtain ⟨hclosed, hafter⟩ := printedLines_read hspace hat hmarker hf
      ((before.flatMap (printedLines marker)).length + 1)
    have hnumber : (before.flatMap (printedLines marker)).length + 1 + (printedLines marker f).length =
        ((before ++ [f]).flatMap (printedLines marker)).length + 1 := by
      rw [List.flatMap_append, List.length_append, List.flatMap_singleton, Nat.add_right_comm]
    have hline : (before.flatMap (printedLines marker)).length + 1 +
        (docLines marker f.metadata?).length = headerNumber marker (before ++ []) f := by
      rw [headerNumber, List.append_nil, Nat.add_right_comm]
    rw [List.flatMap_cons, List.map_append, closedBy_append, hclosed, hafter, List.length_map,
      hnumber, ih hrest, List.mapIdx_cons, List.take_zero, hline]
    simp only [List.take_succ_cons, List.append_assoc, List.singleton_append]

/-- **Functions in the form that scripts give are read back** from their printed text, with the
numbers of their header lines in it. -/
theorem functions_print {fs : List FunctionDoc} (h : ∀ f ∈ fs, Canonical marker f) :
    functions marker (print marker fs) =
      fs.mapIdx fun i f => { f with line := headerNumber marker (fs.take i) f } := by
  rw [functions, functionsFrom_eq_closedBy, splitOn_print hspace h]
  split
  next hnil =>
    rw [hnil]
    rfl
  next => exact closedBy_printedLines hspace hat hmarker h []

end Read

/-- **Reading a script, printing its functions, and reading them again** gives the same functions,
each with the number of its header line in the printed text. -/
theorem functions_print_functions (hspace : Text.isSpace marker = false) (hat : marker ≠ '@')
    (hmarker : isNameChar marker = false) (script : Text) :
    let scanned := functions marker script
    functions marker (print marker scanned) =
        scanned.mapIdx (fun i f => { f with line := headerNumber marker (scanned.take i) f }) ∧
      ∀ i f, scanned[i]? = some f →
        ((print marker scanned).splitOn '\n')[headerNumber marker (scanned.take i) f - 1]? =
          some (headerLine f.name) := by
  have hscanned := canonical_functions marker script
  refine ⟨functions_print hspace hat hmarker hscanned, fun i f hf => ?_⟩
  have hne : functions marker script ≠ [] := by
    intro hnil
    rw [hnil] at hf
    cases hf
  rw [splitOn_print hspace hscanned, if_neg hne]
  exact getElem?_headerNumber _ hf

/-- A script with one function, whose comment has a text that ends with a space, and parameters that
are nested. -/
def copyScript : Text :=
  ("x=1\n## @about  copies\n##\n## @params\n## -@from where\n##--@file f\n" ++
    "function cp_all \x7b\n  cp a b\n\n  done\n\x7d\n").toList

/-- The function of `copyScript`, with its header on the line with a given number. -/
def copyFunction (number : Nat) : FunctionDoc :=
  let params : Tree :=
    .member "from".toList (.tree (.member "file".toList (.text ['f']) .empty)) .empty
  ⟨"cp_all".toList, number, "cp a b\ndone".toList,
    some (.member "about".toList (.text "copies ".toList)
      (.member Comment.paramsKey (.tree params) .empty))⟩

/-- The line in front of the comment is not printed, so that the header moves up by one. -/
theorem functions_print_functions_copyScript :
    (Text.isSpace '#' = false ∧ '#' ≠ '@' ∧ isNameChar '#' = false) ∧
      functions '#' copyScript = [copyFunction 7] ∧
      functions '#' (print '#' (functions '#' copyScript)) = [copyFunction 6] := by
  have hread : functions '#' copyScript = [copyFunction 7] := by decide +kernel
  refine ⟨by decide, hread, ?_⟩
  rw [(functions_print_functions (by decide) (by decide) (by decide) copyScript).1, hread]
  decide +kernel

end ShellDoc.Script
