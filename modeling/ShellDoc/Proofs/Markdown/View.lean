import ShellDoc.Proofs.Markdown.Item
import ShellDoc.Proofs.Markdown.Paragraph
import ShellDoc.Proofs.Script.Canonical

/-!
# What a page says

A page of scanned functions gives back of each function its view (`view_eq_of_page_eq`): all but the
number of the header line, what stands in sections that are empty and dedicated, and where the
dedicated sections stand among the others. The one condition is that no description starts with a
number sign, for it could be taken for a heading.

The paragraphs of a page are told apart first. Each block of a chapter starts with a heading that no
later paragraph of the chapter has in its place, so that a missing block is not taken for a later one
(`headed_append_injective`).
-/

namespace ShellDoc

/-- A value that is found under a name is a member of the tree. -/
theorem Tree.mem_toList_of_find? {name : Text} {value : Value} :
    ∀ {t : Tree}, t.find? name = some value → (name, value) ∈ t.toList
  | .empty, h => nomatch h
  | .member key content rest, h => by
    rw [find?] at h
    split at h
    next hkey =>
      obtain rfl := Option.some.inj h
      rw [← hkey]
      exact List.mem_cons_self
    next => exact List.mem_cons_of_mem _ (mem_toList_of_find? h)

namespace Markdown

open Script (Canonical)

/-! ## Views -/

/-- What a page says of a function. The other sections are those without a block of their own. -/
structure View where
  name : Text
  body : Text
  description? : Option Text
  usage? : Option Text
  parameters? : Option Tree
  others : List (Text × Value)
deriving DecidableEq, Repr

/-- The usage of a function, if there is one to speak of. -/
def usage? (f : FunctionDoc) : Option Text :=
  (f.text? "usage".toList).filter (· ≠ [])

/-- The parameters of a function, if there are any. -/
def parameters? (f : FunctionDoc) : Option Tree :=
  f.params?.filter (!·.isEmpty)

/-- The sections of a function without blocks of their own, in order. -/
def others (f : FunctionDoc) : List (Text × Value) :=
  (f.metadata?.elim [] Tree.toList).filter fun m => !dedicatedKeys.contains m.1

/-- What a page says of a function. -/
def view (f : FunctionDoc) : View where
  name := f.name
  body := f.body
  description? := description? f
  usage? := usage? f
  parameters? := parameters? f
  others := others f

/-- Whether a function has no description that could be taken for a heading. -/
def IsPlain (f : FunctionDoc) : Prop :=
  ∀ text, f.text? "description".toList = some text → text.head? ≠ some '#'

/-! ## Blocks apart -/

/-- Whether paragraphs may stand behind the blocks with other headings: a block with one of the given
headings comes first, or the next chapter. -/
def Follows (headings : List String) (rest : List (List Text)) : Prop :=
  ∀ p ∈ rest.head?,
    (∃ heading ∈ headings, p = [heading.toList]) ∨ ∃ name, p = ["### ".toList ++ name]

theorem Follows.headed {headings : List String} {rest : List (List Text)} (h : Follows headings rest)
    (heading : String) (lines : List Text) :
    Follows (heading :: headings) (headed heading lines ++ rest) := by
  intro p hp
  rw [Markdown.headed] at hp
  split at hp
  · rcases h p hp with ⟨later, hlater, rfl⟩ | hchapter
    · exact .inl ⟨later, List.mem_cons_of_mem _ hlater, rfl⟩
    · exact .inr hchapter
  · obtain rfl := Option.some.inj hp
    exact .inl ⟨heading, List.mem_cons_self, rfl⟩

/-- Whether a heading can be told from those of later blocks and of chapters. -/
def IsNew (heading : String) (headings : List String) : Prop :=
  heading ∉ headings ∧ heading.toList.take 4 ≠ "### ".toList

theorem IsNew.not_follows {heading : String} {headings : List String} (h : IsNew heading headings)
    {rest : List (List Text)} : ¬ Follows headings ([heading.toList] :: rest) := by
  intro hfollows
  rcases hfollows _ rfl with ⟨later, hlater, heq⟩ | ⟨name, heq⟩
  · have hstring : heading = later := String.toList_inj.mp (List.cons.inj heq).1
    exact h.1 (hstring ▸ hlater)
  · exact h.2 (congrArg (List.take 4) (List.cons.inj heq).1)

/-- A block and what follows it can be told apart, also where there is no block. -/
theorem headed_append_injective {heading : String} {headings : List String}
    (hnew : IsNew heading headings) {lines lines' : List Text} {rest rest' : List (List Text)}
    (hrest : Follows headings rest) (hrest' : Follows headings rest')
    (h : headed heading lines ++ rest = headed heading lines' ++ rest') :
    lines = lines' ∧ rest = rest' := by
  unfold headed at h
  split at h
  next hlines =>
    split at h
    next hlines' => exact ⟨hlines.trans hlines'.symm, h⟩
    next =>
      have hheading : rest = _ := h
      rw [hheading] at hrest
      exact absurd hrest hnew.not_follows
  next =>
    split at h
    next =>
      have hheading : _ = rest' := h
      rw [← hheading] at hrest'
      exact absurd hrest' hnew.not_follows
    next =>
      obtain ⟨hcontent, hbehind⟩ := List.cons.inj (List.cons.inj h).2
      exact ⟨hcontent, hbehind⟩

theorem headings_new :
    IsNew "#### Usage" ["#### Parameters", "#### Details", "#### Source"] ∧
      IsNew "#### Parameters" ["#### Details", "#### Source"] ∧
      IsNew "#### Details" ["#### Source"] ∧ IsNew "#### Source" [] := by
  refine ⟨⟨?_, ?_⟩, ⟨?_, ?_⟩, ⟨?_, ?_⟩, ⟨?_, ?_⟩⟩ <;> decide

theorem follows_blocks (f : FunctionDoc) {rest : List (List Text)} (h : Follows [] rest) :
    Follows ["#### Usage", "#### Parameters", "#### Details", "#### Source"] (blocks f ++ rest) := by
  simp only [blocks, List.append_assoc]
  exact (((h.headed _ _).headed _ _).headed _ _).headed _ _

theorem blocks_append_injective {f f' : FunctionDoc} {rest rest' : List (List Text)}
    (hrest : Follows [] rest) (hrest' : Follows [] rest')
    (h : blocks f ++ rest = blocks f' ++ rest') :
    usageLines f = usageLines f' ∧ parameterLines f = parameterLines f' ∧
      detailLines f = detailLines f' ∧ codeLines f = codeLines f' ∧ rest = rest' := by
  obtain ⟨husage, hparameters, hdetails, hsource⟩ := headings_new
  simp only [blocks, List.append_assoc] at h
  obtain ⟨hu, h⟩ := headed_append_injective husage (((hrest.headed _ _).headed _ _).headed _ _)
    (((hrest'.headed _ _).headed _ _).headed _ _) h
  obtain ⟨hp, h⟩ := headed_append_injective hparameters ((hrest.headed _ _).headed _ _)
    ((hrest'.headed _ _).headed _ _) h
  obtain ⟨hd, h⟩ := headed_append_injective hdetails (hrest.headed _ _) (hrest'.headed _ _) h
  obtain ⟨hs, h⟩ := headed_append_injective hsource hrest hrest' h
  exact ⟨hu, hp, hd, hs, h⟩

/-- A heading starts with a number sign. -/
theorem Follows.head?_eq {rest : List (List Text)}
    (h : Follows ["#### Usage", "#### Parameters", "#### Details", "#### Source"] rest)
    {text : Text} (htext : rest.head? = some [text]) : text.head? = some '#' := by
  have hsigns : ∀ heading ∈ ["#### Usage", "#### Parameters", "#### Details", "#### Source"],
      heading.toList.head? = some '#' := by decide
  rcases h _ htext with ⟨heading, hheading, heq⟩ | ⟨name, heq⟩
  · rw [(List.cons.inj heq).1]
    exact hsigns heading hheading
  · rw [(List.cons.inj heq).1]
    rfl

theorem description_append_injective {f f' : FunctionDoc} (hf : IsPlain f) (hf' : IsPlain f')
    {rest rest' : List (List Text)}
    (hrest : Follows ["#### Usage", "#### Parameters", "#### Details", "#### Source"] rest)
    (hrest' : Follows ["#### Usage", "#### Parameters", "#### Details", "#### Source"] rest')
    (h : (description? f).toList.map ([·]) ++ rest = (description? f').toList.map ([·]) ++ rest') :
    description? f = description? f' ∧ rest = rest' := by
  have hplain : ∀ {g : FunctionDoc}, IsPlain g → ∀ text, description? g = some text →
      text.head? ≠ some '#' := fun hg text htext =>
    hg text (Option.filter_eq_some_iff.mp htext).1
  cases hd : description? f with
  | none =>
    cases hd' : description? f' with
    | none =>
      rw [hd, hd'] at h
      exact ⟨rfl, h⟩
    | some text =>
      rw [hd, hd'] at h
      have hfirst : rest.head? = some [text] := congrArg List.head? h
      exact absurd (hrest.head?_eq hfirst) (hplain hf' text hd')
  | some text =>
    cases hd' : description? f' with
    | none =>
      rw [hd, hd'] at h
      have hfirst : rest'.head? = some [text] := (congrArg List.head? h).symm
      exact absurd (hrest'.head?_eq hfirst) (hplain hf text hd)
    | some text' =>
      rw [hd, hd'] at h
      obtain ⟨hfirst, hbehind⟩ := List.cons.inj h
      exact ⟨congrArg some (List.cons.inj hfirst).1, hbehind⟩

/-! ## Contents -/

theorem usageLines_eq (f : FunctionDoc) :
    usageLines f = (usage? f).toList.map fun text => '\x60' :: text ++ ['\x60'] := by
  unfold usageLines usage?
  rcases f.text? "usage".toList with _ | _ | ⟨c, rest⟩
  · rfl
  · rfl
  · rfl

theorem usage?_eq_of_usageLines_eq {f f' : FunctionDoc} (h : usageLines f = usageLines f') :
    usage? f = usage? f' := by
  have hmark : Function.Injective fun text : Text => '\x60' :: text ++ ['\x60'] := fun _ _ heq =>
    List.append_cancel_right (List.cons.inj heq).2
  rw [usageLines_eq, usageLines_eq] at h
  have hlist := List.map_injective_iff.mpr hmark h
  simpa only [Option.head?_toList] using congrArg List.head? hlist

theorem body_eq_of_codeLines_eq {f f' : FunctionDoc} (h : codeLines f = codeLines f') :
    f.body = f'.body := by
  unfold codeLines at h
  split at h
  next hbody =>
    split at h
    next hbody' => exact hbody.trans hbody'.symm
    next => exact absurd h.symm (List.cons_ne_nil _ _)
  next =>
    split at h
    next => exact absurd h (List.cons_ne_nil _ _)
    next =>
      have hlines := List.append_cancel_right (List.cons.inj h).2
      calc f.body
        _ = List.intercalate ['\n'] (f.body.splitOn '\n') := (List.intercalate_splitOn '\n').symm
        _ = List.intercalate ['\n'] (f'.body.splitOn '\n') := by rw [hlines]
        _ = f'.body := List.intercalate_splitOn '\n'

variable {marker marker' : Char} {f f' : FunctionDoc}

/-- The sections of a scanned function have the form that comments give them. -/
theorem isSection_of_mem (hf : Canonical marker f) {m : Text × Value}
    (h : m ∈ f.metadata?.elim [] Tree.toList) : Comment.IsSection m := by
  cases hmetadata : f.metadata? with
  | none =>
    rw [hmetadata] at h
    cases h
  | some metadata =>
    rw [hmetadata] at h
    exact (hf.metadata metadata hmetadata).2 m h

theorem mem_of_find? {key : Text} {metadata : Tree} {value : Value}
    (hmetadata : f.metadata? = some metadata) (h : metadata.find? key = some value) :
    (key, value) ∈ f.metadata?.elim [] Tree.toList := by
  rw [hmetadata]
  exact Tree.mem_toList_of_find? h

theorem canonical_params? (hf : Canonical marker f) {tree : Tree} (h : f.params? = some tree) :
    Parameter.Canonical tree := by
  obtain ⟨metadata, hmetadata, h⟩ := Option.bind_eq_some_iff.mp h
  obtain ⟨value, hvalue, h⟩ := Option.bind_eq_some_iff.mp h
  cases value with
  | text content => cases h
  | tree members =>
    obtain rfl := Option.some.inj h
    exact (isSection_of_mem hf (mem_of_find? hmetadata hvalue)).2

theorem isRunning_text? (hf : Canonical marker f) {key text : Text} (h : f.text? key = some text) :
    Comment.IsRunning text := by
  obtain ⟨metadata, hmetadata, h⟩ := Option.bind_eq_some_iff.mp h
  obtain ⟨value, hvalue, h⟩ := Option.bind_eq_some_iff.mp h
  cases value with
  | text content =>
    obtain rfl := Option.some.inj h
    exact (isSection_of_mem hf (mem_of_find? hmetadata hvalue)).2.2.1
  | tree members => cases h

theorem parameterLines_eq (f : FunctionDoc) :
    parameterLines f = (parameters? f).elim [] (treeLines 0) := by
  unfold parameterLines parameters?
  rcases f.params? with _ | _ | ⟨key, value, rest⟩
  · rfl
  · rfl
  · rfl

theorem treeLines_ne_nil_of_parameters? {tree : Tree} (h : parameters? f = some tree) :
    treeLines 0 tree ≠ [] := by
  cases tree with
  | empty => exact absurd (Option.filter_eq_some_iff.mp h).2 (by decide)
  | member key value rest =>
    rw [treeLines_member]
    exact List.cons_ne_nil _ _

theorem parameters?_eq_of_parameterLines_eq (hf : Canonical marker f) (hf' : Canonical marker' f')
    (h : parameterLines f = parameterLines f') : parameters? f = parameters? f' := by
  rw [parameterLines_eq, parameterLines_eq] at h
  cases hp : parameters? f with
  | none =>
    cases hp' : parameters? f' with
    | none => rfl
    | some tree =>
      rw [hp, hp'] at h
      exact absurd h.symm (treeLines_ne_nil_of_parameters? hp')
  | some tree =>
    cases hp' : parameters? f' with
    | none =>
      rw [hp, hp'] at h
      exact absurd h (treeLines_ne_nil_of_parameters? hp)
    | some tree' =>
      rw [hp, hp'] at h
      have htree := canonical_params? hf (Option.filter_eq_some_iff.mp hp).1
      have htree' := canonical_params? hf' (Option.filter_eq_some_iff.mp hp').1
      rw [treeLines_injective htree htree' h]

/-- The line of a section among the details. -/
def detail (m : Text × Value) : Text :=
  item m.1 (m.2.text?.filter (· ≠ []))

/-- A section without a block of its own is running text. -/
theorem exists_text_of_not_dedicated {m : Text × Value} (h : Comment.IsSection m)
    (hkey : m.1 ∉ dedicatedKeys) :
    ∃ text, m.2 = .text text ∧ ∀ c ∈ m.1, Text.isSpace c = false := by
  obtain ⟨key, value⟩ := m
  cases value with
  | text text => exact ⟨text, rfl, h.1⟩
  | tree members =>
    obtain rfl := h.1
    have hparams : Comment.paramsKey ∈ dedicatedKeys := by decide
    exact absurd hparams hkey

theorem detailLine?_eq {m : Text × Value} (h : Comment.IsSection m) (hkey : m.1 ∉ dedicatedKeys) :
    detailLine? m.1 m.2 = some (detail m) := by
  obtain ⟨text, htext, _⟩ := exists_text_of_not_dedicated h hkey
  rw [detail, htext]
  unfold detailLine?
  rw [if_neg hkey]
  cases text with
  | nil => exact congrArg some (List.append_nil ("* ".toList ++ bold m.1)).symm
  | cons c rest => exact congrArg some (List.append_assoc _ _ _)

theorem filterMap_detailLine? {ms : List (Text × Value)} (h : ∀ m ∈ ms, Comment.IsSection m) :
    (ms.filterMap fun m => detailLine? m.1 m.2) =
      (ms.filter fun m => !dedicatedKeys.contains m.1).map detail := by
  induction ms with
  | nil => rfl
  | cons m rest ih =>
    obtain ⟨hm, hrest⟩ := List.forall_mem_cons.mp h
    by_cases hkey : m.1 ∈ dedicatedKeys
    · have hnone : detailLine? m.1 m.2 = none := if_pos hkey
      rw [List.filter_cons_of_neg (by simpa using hkey), ← ih hrest]
      simp only [List.filterMap_cons, hnone]
    · rw [List.filter_cons_of_pos (by simpa using hkey), List.map_cons, ← ih hrest]
      simp only [List.filterMap_cons, detailLine?_eq hm hkey]

theorem detailLines_eq (hf : Canonical marker f) : detailLines f = (others f).map detail := by
  unfold detailLines others
  cases hmetadata : f.metadata? with
  | none => rfl
  | some metadata => exact filterMap_detailLine? (hf.metadata metadata hmetadata).2

theorem detail_injective {m m' : Text × Value} (h : Comment.IsSection m)
    (h' : Comment.IsSection m') (hkey : m.1 ∉ dedicatedKeys) (hkey' : m'.1 ∉ dedicatedKeys)
    (heq : detail m = detail m') : m = m' := by
  obtain ⟨text, htext, hplain⟩ := exists_text_of_not_dedicated h hkey
  obtain ⟨text', htext', hplain'⟩ := exists_text_of_not_dedicated h' hkey'
  obtain ⟨hname, hbeside⟩ := item_injective hplain hplain' heq
  rw [htext, htext'] at hbeside
  have hsame : text = text' := by
    cases text with
    | nil =>
      cases text' with
      | nil => rfl
      | cons c rest => cases hbeside
    | cons c rest =>
      cases text' with
      | nil => cases hbeside
      | cons c' rest' => exact Option.some.inj hbeside
  exact Prod.ext hname (by rw [htext, htext', hsame])

theorem others_eq_of_detailLines_eq (hf : Canonical marker f) (hf' : Canonical marker' f')
    (h : detailLines f = detailLines f') : others f = others f' := by
  have hmap : ∀ ms ms' : List (Text × Value),
      (∀ m ∈ ms, Comment.IsSection m ∧ m.1 ∉ dedicatedKeys) →
      (∀ m ∈ ms', Comment.IsSection m ∧ m.1 ∉ dedicatedKeys) →
      ms.map detail = ms'.map detail → ms = ms' := by
    intro ms
    induction ms with
    | nil => exact fun ms' _ _ heq => (List.map_eq_nil_iff.mp heq.symm).symm
    | cons m rest ih =>
      intro ms' hms hms' heq
      cases ms' with
      | nil => cases heq
      | cons m' rest' =>
        obtain ⟨hm, hrest⟩ := List.forall_mem_cons.mp hms
        obtain ⟨hm', hrest'⟩ := List.forall_mem_cons.mp hms'
        obtain ⟨hfirst, hbehind⟩ := List.cons.inj heq
        rw [detail_injective hm.1 hm'.1 hm.2 hm'.2 hfirst, ih rest' hrest hrest' hbehind]
  have hothers : ∀ {m : Char} {g : FunctionDoc}, Canonical m g →
      ∀ s ∈ others g, Comment.IsSection s ∧ s.1 ∉ dedicatedKeys := by
    intro m g hg s hs
    obtain ⟨hmem, hkey⟩ := List.mem_filter.mp hs
    exact ⟨isSection_of_mem hg hmem, by simpa using hkey⟩
  rw [detailLines_eq hf, detailLines_eq hf'] at h
  exact hmap _ _ (hothers hf) (hothers hf') h

/-! ## Chapters -/

/-- **A chapter gives back the view of its function**, and what follows it. -/
theorem chapterParagraphs_append_injective (hf : Canonical marker f) (hf' : Canonical marker' f')
    (hplain : IsPlain f) (hplain' : IsPlain f') {rest rest' : List (List Text)}
    (hrest : Follows [] rest) (hrest' : Follows [] rest')
    (h : chapterParagraphs f ++ rest = chapterParagraphs f' ++ rest') :
    view f = view f' ∧ rest = rest' := by
  rw [chapterParagraphs, chapterParagraphs, List.cons_append, List.cons_append, List.append_assoc,
    List.append_assoc] at h
  obtain ⟨hheading, h⟩ := List.cons.inj h
  obtain ⟨hdescription, h⟩ := description_append_injective hplain hplain' (follows_blocks f hrest)
    (follows_blocks f' hrest') h
  obtain ⟨husage, hparameters, hdetails, hsource, hbehind⟩ := blocks_append_injective hrest hrest' h
  have hname : f.name = f'.name := List.append_cancel_left (List.cons.inj hheading).1
  refine ⟨?_, hbehind⟩
  rw [view, view, hname, body_eq_of_codeLines_eq hsource, hdescription,
    usage?_eq_of_usageLines_eq husage, parameters?_eq_of_parameterLines_eq hf hf' hparameters,
    others_eq_of_detailLines_eq hf hf' hdetails]

theorem follows_chapters (fs : List FunctionDoc) : Follows [] (fs.flatMap chapterParagraphs) := by
  intro p hp
  cases fs with
  | nil => cases hp
  | cons f rest =>
    obtain rfl := Option.some.inj hp
    exact .inr ⟨f.name, rfl⟩

theorem chapters_injective {fs fs' : List FunctionDoc} (hfs : ∀ f ∈ fs, Canonical marker f)
    (hfs' : ∀ f ∈ fs', Canonical marker' f) (hplain : ∀ f ∈ fs, IsPlain f)
    (hplain' : ∀ f ∈ fs', IsPlain f)
    (h : fs.flatMap chapterParagraphs = fs'.flatMap chapterParagraphs) :
    fs.map view = fs'.map view := by
  induction fs generalizing fs' with
  | nil =>
    cases fs' with
    | nil => rfl
    | cons f' rest' => cases h
  | cons f rest ih =>
    cases fs' with
    | nil => cases h
    | cons f' rest' =>
      obtain ⟨hf, hrest⟩ := List.forall_mem_cons.mp hfs
      obtain ⟨hf', hrest'⟩ := List.forall_mem_cons.mp hfs'
      obtain ⟨hp, hplains⟩ := List.forall_mem_cons.mp hplain
      obtain ⟨hp', hplains'⟩ := List.forall_mem_cons.mp hplain'
      obtain ⟨hview, hbehind⟩ := chapterParagraphs_append_injective hf hf' hp hp'
        (follows_chapters rest) (follows_chapters rest') h
      rw [List.map_cons, List.map_cons, hview, ih hrest hrest' hplains hplains' hbehind]

end Markdown

end ShellDoc
