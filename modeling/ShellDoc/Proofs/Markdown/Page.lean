import ShellDoc.Proofs.Markdown.View

/-!
# Pages of scripts

The functions of two scripts have the same views if their pages are the same
(`view_eq_of_page_eq`), whatever the markers of the scripts are. What is left for this is that the
lines of a page are lines, since scanned functions hold no line feed but between the lines of a body.
-/

namespace ShellDoc.Markdown

open Script (Canonical)

variable {marker marker' : Char} {f : FunctionDoc}

theorem not_mem_item {name : Text} {text? : Option Text} (hname : '\n' ∉ name)
    (htext : ∀ text ∈ text?, '\n' ∉ text) : '\n' ∉ item name text? := by
  have hmarks : '\n' ∉ "* ".toList ∧ '\n' ∉ "**".toList ∧ '\n' ∉ ": ".toList := by decide
  obtain ⟨hstar, hbold, hcolon⟩ := hmarks
  have hbeside : '\n' ∉ text?.elim [] (": ".toList ++ ·) := by
    cases text? with
    | none => exact List.not_mem_nil
    | some text =>
      rw [Option.elim_some, List.mem_append, not_or]
      exact ⟨hcolon, htext text rfl⟩
  simp only [item, bold, List.mem_append, not_or]
  exact ⟨hstar, ⟨⟨hbold, hname⟩, hbold⟩, hbeside⟩

theorem not_mem_of_plain {name : Text} (h : ∀ c ∈ name, Text.isSpace c = false) : '\n' ∉ name :=
  fun hmem => absurd (h _ hmem) (by decide)

/-- The lines of a nested list make up a paragraph, on whatever level they are. -/
theorem isParagraph_treeLines : ∀ {t : Tree} (level : Nat), Parameter.Canonical t →
    IsParagraph (treeLines level t)
  | .empty, _, _ => List.forall_mem_nil _
  | .member key value rest, level, ⟨hkey, _, hvalue, hrest⟩ => by
    have hname : '\n' ∉ key :=
      not_mem_of_plain fun c hc => Parameter.isSpace_of_isNameChar (hkey.2 c hc)
    have hline : indented level key value ≠ [] ∧ '\n' ∉ indented level key value := by
      refine ⟨List.append_ne_nil_of_right_ne_nil _ (List.cons_ne_nil _ _), ?_⟩
      rw [indented, List.mem_append, not_or]
      refine ⟨fun hmem => absurd (List.eq_of_mem_replicate hmem) (by decide), ?_⟩
      refine not_mem_item hname fun text htext => ?_
      cases value with
      | text content =>
        obtain rfl := Option.some.inj htext
        exact hvalue.2.2
      | tree members => cases htext
    have hbelow : IsParagraph (linesBelow (level + 1) value) := by
      cases value with
      | text content => exact List.forall_mem_nil _
      | tree members => exact isParagraph_treeLines (level + 1) hvalue
    rw [treeLines_member]
    exact List.forall_mem_cons.mpr
      ⟨hline, List.forall_mem_append.mpr ⟨hbelow, isParagraph_treeLines level hrest⟩⟩

theorem isParagraph_parameterLines (hf : Canonical marker f) : IsParagraph (parameterLines f) := by
  rw [parameterLines_eq]
  cases hp : parameters? f with
  | none => exact List.forall_mem_nil _
  | some tree =>
    exact isParagraph_treeLines 0 (canonical_params? hf (Option.filter_eq_some_iff.mp hp).1)

theorem isParagraph_detailLines (hf : Canonical marker f) : IsParagraph (detailLines f) := by
  rw [detailLines_eq hf]
  intro line hline
  obtain ⟨m, hm, rfl⟩ := List.mem_map.mp hline
  obtain ⟨hmem, hkey⟩ := List.mem_filter.mp hm
  have hsection := isSection_of_mem hf hmem
  obtain ⟨text, htext, hplain⟩ := exists_text_of_not_dedicated hsection (by simpa using hkey)
  refine ⟨List.cons_ne_nil _ _, not_mem_item (not_mem_of_plain hplain) fun text' htext' => ?_⟩
  rw [htext] at htext'
  obtain ⟨hsame, _⟩ := Option.filter_eq_some_iff.mp htext'
  obtain rfl := Option.some.inj hsame
  obtain ⟨key, value⟩ := m
  obtain rfl : value = .text text := htext
  exact hsection.2.2.1.1

theorem isParagraph_codeLines (hf : Canonical marker f) : IsParagraph (codeLines f) := by
  unfold codeLines
  split
  next => exact List.forall_mem_nil _
  next hbody =>
    obtain ⟨pieces, hpieces, hjoin⟩ := hf.body
    have hsplit : f.body.splitOn '\n' = pieces := by
      rw [hjoin]
      refine List.splitOn_intercalate '\n' (fun piece hpiece => (hpieces piece hpiece).1.2) ?_
      rintro rfl
      exact hbody hjoin
    have hfences : ∀ line ∈ ["\x60\x60\x60zsh".toList, "\x60\x60\x60".toList],
        line ≠ [] ∧ '\n' ∉ line := by decide
    obtain ⟨hopening, hclosing⟩ := List.forall_mem_cons.mp hfences
    rw [hsplit]
    refine List.forall_mem_cons.mpr ⟨hopening, List.forall_mem_append.mpr ⟨?_, hclosing⟩⟩
    exact fun piece hpiece => ⟨(hpieces piece hpiece).2.1, (hpieces piece hpiece).1.2⟩

theorem isParagraph_headed (heading : String) {lines : List Text} (h : IsParagraph lines)
    (hheading : heading.toList ≠ [] ∧ '\n' ∉ heading.toList) :
    ∀ p ∈ headed heading lines, IsParagraph p := by
  unfold headed
  split
  next => exact List.forall_mem_nil _
  next =>
    exact List.forall_mem_cons.mpr
      ⟨List.forall_mem_singleton.mpr hheading, List.forall_mem_singleton.mpr h⟩

theorem not_mem_name (hf : Canonical marker f) : '\n' ∉ f.name := fun hmem =>
  absurd (hf.name.2 _ hmem) (by decide)

theorem isParagraph_of_mem_chapterParagraphs (hf : Canonical marker f) :
    ∀ p ∈ chapterParagraphs f, IsParagraph p := by
  have hheading : IsParagraph (chapterHeading f) := by
    refine List.forall_mem_singleton.mpr ⟨List.cons_ne_nil _ _, ?_⟩
    rw [List.mem_append, not_or]
    exact ⟨by decide, not_mem_name hf⟩
  have hdescription : ∀ p ∈ (description? f).toList.map ([·]), IsParagraph p := by
    intro p hp
    obtain ⟨text, htext, rfl⟩ := List.mem_map.mp hp
    obtain ⟨hsome, hne⟩ := Option.filter_eq_some_iff.mp (Option.mem_toList.mp htext)
    exact List.forall_mem_singleton.mpr ⟨by simpa using hne, (isRunning_text? hf hsome).1⟩
  have husage : IsParagraph (usageLines f) := by
    intro line hline
    rw [usageLines_eq] at hline
    obtain ⟨text, htext, rfl⟩ := List.mem_map.mp hline
    obtain ⟨hsome, _⟩ := Option.filter_eq_some_iff.mp (Option.mem_toList.mp htext)
    refine ⟨List.cons_ne_nil _ _, ?_⟩
    rw [List.cons_append, List.mem_cons, List.mem_append, not_or, not_or]
    exact ⟨by decide, (isRunning_text? hf hsome).1, by decide⟩
  unfold chapterParagraphs blocks
  simp only [List.forall_mem_cons, List.forall_mem_append]
  exact ⟨hheading, hdescription, isParagraph_headed _ husage (by decide),
    isParagraph_headed _ (isParagraph_parameterLines hf) (by decide),
    isParagraph_headed _ (isParagraph_detailLines hf) (by decide),
    isParagraph_headed _ (isParagraph_codeLines hf) (by decide)⟩

theorem not_mem_anchor (heading : Text) : '\n' ∉ anchor heading := by
  have hfeed : ¬ (Text.isAlphanumeric '\n' || '\n' == '-') = true := by decide +kernel
  intro hmem
  obtain ⟨c, _, hc⟩ := List.mem_filterMap.mp hmem
  split at hc
  next => exact absurd hc (by decide)
  next =>
    split at hc
    next halnum =>
      obtain rfl := Option.some.inj hc
      exact absurd halnum hfeed
    next => cases hc

theorem isParagraph_of_mem_pageParagraphs {fs : List FunctionDoc}
    (hfs : ∀ f ∈ fs, Canonical marker f) : ∀ p ∈ pageParagraphs fs, IsParagraph p := by
  unfold pageParagraphs
  split
  next => exact List.forall_mem_nil _
  next =>
    refine List.forall_mem_cons.mpr ⟨?_, List.forall_mem_cons.mpr ⟨fun line hline => ?_, ?_⟩⟩
    · exact List.forall_mem_singleton.mpr (by decide)
    · obtain ⟨f, hf, rfl⟩ := List.mem_map.mp hline
      refine ⟨List.append_ne_nil_of_right_ne_nil _ (List.cons_ne_nil _ _), ?_⟩
      simp only [entry, List.mem_append, not_or]
      exact ⟨⟨⟨⟨by decide, not_mem_name (hfs f hf)⟩, by decide⟩, not_mem_anchor _⟩, by decide⟩
    · intro p hp
      obtain ⟨f, hf, hp⟩ := List.mem_flatMap.mp hp
      exact isParagraph_of_mem_chapterParagraphs (hfs f hf) p hp

/-- **A page gives back the views of the functions.** -/
theorem view_eq_of_page_eq {marker marker' : Char} {script script' : Text}
    (hplain : ∀ f ∈ Script.functions marker script, IsPlain f)
    (hplain' : ∀ f ∈ Script.functions marker' script', IsPlain f)
    (h : page (Script.functions marker script) = page (Script.functions marker' script')) :
    (Script.functions marker script).map view = (Script.functions marker' script').map view := by
  have hfs := Script.canonical_functions marker script
  have hfs' := Script.canonical_functions marker' script'
  rw [page_eq_written, page_eq_written] at h
  have hparagraphs := written_injective (isParagraph_of_mem_pageParagraphs hfs)
    (isParagraph_of_mem_pageParagraphs hfs') h
  refine chapters_injective hfs hfs' hplain hplain' ?_
  unfold pageParagraphs at hparagraphs
  split at hparagraphs
  next hnil =>
    split at hparagraphs
    next hnil' => rw [hnil, hnil']
    next => cases hparagraphs
  next =>
    split at hparagraphs
    next => cases hparagraphs
    next => exact (List.cons.inj (List.cons.inj hparagraphs).2).2

/-- A script with one function, the usage of which stands in front of another section. -/
def hashScript : Text :=
  "## @usage cp_all\n## @since 1.2\ncp_all() \x7b\n  cp a b\n\x7d\n".toList

/-- A script with the same function under another marker and in another form. Its header has another
number, it has an empty description, and the usage stands behind the other section. -/
def semicolonScript : Text :=
  ("x=1\n;; @description\n;; @since   1.2\n;; @usage cp_all\nfunction cp_all \x7b\ncp a b\n\n" ++
    "\x7d\n").toList

/-- Two scripts with different functions that a page does not tell apart. -/
theorem view_eq_of_page_eq_semicolonScript :
    (∀ f ∈ Script.functions '#' hashScript, IsPlain f) ∧
      (∀ f ∈ Script.functions ';' semicolonScript, IsPlain f) ∧
      page (Script.functions '#' hashScript) = page (Script.functions ';' semicolonScript) ∧
      Script.functions '#' hashScript ≠ Script.functions ';' semicolonScript ∧
      (Script.functions '#' hashScript).map view =
        (Script.functions ';' semicolonScript).map view := by
  have hplain : ∀ f ∈ Script.functions '#' hashScript, f.text? "description".toList = none := by
    decide +kernel
  have hplain' : ∀ f ∈ Script.functions ';' semicolonScript,
      f.text? "description".toList = some [] := by decide +kernel
  have hhash : ∀ f ∈ Script.functions '#' hashScript, IsPlain f := by
    intro f hf text htext
    rw [hplain f hf] at htext
    cases htext
  have hsemicolon : ∀ f ∈ Script.functions ';' semicolonScript, IsPlain f := by
    intro f hf text htext
    rw [hplain' f hf] at htext
    obtain rfl := Option.some.inj htext
    decide
  have hpage : page (Script.functions '#' hashScript) =
      page (Script.functions ';' semicolonScript) := by decide +kernel
  exact ⟨hhash, hsemicolon, hpage, by decide +kernel, view_eq_of_page_eq hhash hsemicolon hpage⟩

end ShellDoc.Markdown
