import ShellDoc.Markdown
import ShellDoc.Proofs.Parameter.Printed

/-!
# Items of lists

What the lines of a list say. An item's line gives its name back, and its text if it has one, as long
as the name holds no white space (`item_injective`): the first space behind the star ends the name.
The lines of a nested list give its tree back (`treeLines_injective`), since the indentation of a line
tells its level.
-/

namespace ShellDoc.Markdown

/-! ## One item -/

/-- The line of an item, but for its indentation: a name in bold, and a text if there is one. -/
def item (name : Text) (text? : Option Text) : Text :=
  "* ".toList ++ (bold name ++ text?.elim [] (": ".toList ++ ·))

/-- What stands in front of the first space behind the star. -/
def itemWord (name : Text) (text? : Option Text) : Text :=
  bold name ++ text?.elim [] fun _ => [':']

theorem item_eq (name : Text) (text? : Option Text) :
    item name text? = "* ".toList ++ (itemWord name text? ++ text?.elim [] (' ' :: ·)) := by
  cases text? with
  | none => simp only [item, itemWord, Option.elim_none, List.append_nil]
  | some text =>
    rw [item, itemWord, List.append_assoc]
    rfl

theorem isSpace_of_mem_itemWord {name : Text} (h : ∀ c ∈ name, Text.isSpace c = false)
    (text? : Option Text) : ∀ c ∈ itemWord name text?, Text.isSpace c = false := by
  have hstar : Text.isSpace '*' = false := by decide
  have hstars : ∀ c ∈ "**".toList, Text.isSpace c = false :=
    List.forall_mem_cons.mpr ⟨hstar, List.forall_mem_singleton.mpr hstar⟩
  have hend : ∀ c ∈ text?.elim [] fun _ => [':'], Text.isSpace c = false := by
    cases text? with
    | none => exact List.forall_mem_nil _
    | some text => exact List.forall_mem_singleton.mpr (by decide)
  simp only [itemWord, bold, List.forall_mem_append]
  exact ⟨⟨⟨hstars, h⟩, hstars⟩, hend⟩

/-- **An item's line gives back its name and its text.** -/
theorem item_injective {name name' : Text} {text? text?' : Option Text}
    (hname : ∀ c ∈ name, Text.isSpace c = false) (hname' : ∀ c ∈ name', Text.isSpace c = false)
    (h : item name text? = item name' text?') : name = name' ∧ text? = text?' := by
  have hparts : ∀ {n : Text} (t? : Option Text), (∀ c ∈ n, Text.isSpace c = false) →
      (itemWord n t? ++ t?.elim [] (' ' :: ·)).takeWhile (!Text.isSpace ·) = itemWord n t? ∧
        (itemWord n t? ++ t?.elim [] (' ' :: ·)).dropWhile (!Text.isSpace ·) =
          t?.elim [] (' ' :: ·) := by
    intro n t? hn
    have hword : ∀ c ∈ itemWord n t?, (!Text.isSpace c) = true := fun c hc => by
      rw [isSpace_of_mem_itemWord hn t? c hc, Bool.not_false]
    have hspace : ∀ c ∈ (t?.elim [] (' ' :: ·)).head?, (!Text.isSpace c) = false := by
      cases t? with
      | none => exact fun c hc => nomatch hc
      | some text =>
        rintro c ⟨⟩
        decide
    exact ⟨Text.takeWhile_append hword hspace, Text.dropWhile_append hword hspace⟩
  rw [item_eq, item_eq] at h
  have hbehind := List.append_cancel_left h
  have hword := (hparts text? hname).1
  have htext := (hparts text? hname).2
  rw [hbehind, (hparts text?' hname').1] at hword
  rw [hbehind, (hparts text?' hname').2] at htext
  have htext : text? = text?' := by
    cases text? with
    | none =>
      cases text?' with
      | none => rfl
      | some text => exact absurd htext (List.cons_ne_nil _ _)
    | some text =>
      cases text?' with
      | none => exact absurd htext.symm (List.cons_ne_nil _ _)
      | some text' => exact congrArg some (List.cons.inj htext).2.symm
  subst htext
  rw [itemWord, itemWord, bold, bold] at hword
  have hbold := List.append_cancel_right hword
  exact ⟨(List.append_cancel_left (List.append_cancel_right hbold)).symm, rfl⟩

/-! ## Nested lists -/

/-- The line of a parameter on a level. -/
def indented (level : Nat) (key : Text) (value : Value) : Text :=
  List.replicate (2 * level) ' ' ++ item key value.text?

/-- The number of spaces in front of a line. -/
def indentation (line : Text) : Nat :=
  (line.takeWhile (· == ' ')).length

/-- The lines of the items below an item. -/
def linesBelow (level : Nat) : Value → List Text
  | .text _ => []
  | .tree members => treeLines level members

theorem treeLines_member (level : Nat) (key : Text) (value : Value) (rest : Tree) :
    treeLines level (.member key value rest) =
      indented level key value :: (linesBelow (level + 1) value ++ treeLines level rest) := by
  cases value with
  | text content =>
    simp only [treeLines, valueLines, indented, linesBelow, item, Value.text?, Option.elim_some,
      List.append_assoc, List.nil_append, List.singleton_append]
  | tree members =>
    simp only [treeLines, valueLines, indented, linesBelow, item, Value.text?, Option.elim_none,
      List.append_nil, List.cons_append, List.append_assoc]

theorem indentation_indented (level : Nat) (key : Text) (value : Value) :
    indentation (indented level key value) = 2 * level := by
  have hspaces : ∀ c ∈ List.replicate (2 * level) ' ', (c == ' ') = true := fun c hc =>
    beq_iff_eq.mpr (List.eq_of_mem_replicate hc)
  have hstar : ∀ c ∈ (item key value.text?).head?, (c == ' ') = false := by
    rintro c ⟨⟩
    decide
  rw [indentation, indented, Text.takeWhile_append hspaces hstar, List.length_replicate]

/-- Whether no item of a level or a deeper one comes first. -/
def EndsLevel (level : Nat) (lines : List Text) : Prop :=
  ∀ line ∈ lines.head?, indentation line < 2 * level

theorem EndsLevel.treeLines_append {level : Nat} {lines : List Text} (h : EndsLevel level lines)
    (t : Tree) : EndsLevel (level + 1) (treeLines level t ++ lines) := by
  intro line hline
  cases t with
  | empty =>
    have := h line hline
    omega
  | member key value rest =>
    rw [treeLines_member] at hline
    obtain rfl := Option.some.inj hline
    rw [indentation_indented]
    omega

theorem not_endsLevel_treeLines_member {level : Nat} {key : Text} {value : Value} {rest : Tree}
    {lines : List Text} : ¬ EndsLevel level (treeLines level (.member key value rest) ++ lines) := by
  intro h
  rw [treeLines_member] at h
  have hfirst := h _ rfl
  rw [indentation_indented] at hfirst
  exact Nat.lt_irrefl _ hfirst

/-- A line gives back the name of its item, and whether it has a text and which. -/
theorem indented_injective {level : Nat} {key key' : Text} {value value' : Value}
    (hkey : Parameter.IsName key) (hkey' : Parameter.IsName key')
    (h : indented level key value = indented level key' value') :
    key = key' ∧ value.text? = value'.text? :=
  item_injective (fun c hc => Parameter.isSpace_of_isNameChar (hkey.2 c hc))
    (fun c hc => Parameter.isSpace_of_isNameChar (hkey'.2 c hc)) (List.append_cancel_left h)

/-- The lines of a tree end where the level does, so that they give back the tree and what follows
it. -/
theorem treeLines_append_injective : ∀ {t t' : Tree} {level : Nat} {lines lines' : List Text},
    Parameter.Canonical t → Parameter.Canonical t' → EndsLevel level lines →
    EndsLevel level lines' → treeLines level t ++ lines = treeLines level t' ++ lines' →
    t = t' ∧ lines = lines'
  | .empty, .empty, _, _, _, _, _, _, _, h => ⟨rfl, h⟩
  | .empty, .member .., level, lines, _, _, _, hends, _, h => by
    have hlines : lines = _ := h
    rw [hlines] at hends
    exact absurd hends not_endsLevel_treeLines_member
  | .member .., .empty, level, _, lines', _, _, _, hends', h => by
    have hlines : _ = lines' := h
    rw [← hlines] at hends'
    exact absurd hends' not_endsLevel_treeLines_member
  | .member key value rest, .member key' value' rest', level, lines, lines',
      ⟨hkey, _, hvalue, hrest⟩, ⟨hkey', _, hvalue', hrest'⟩, hends, hends', h => by
    rw [treeLines_member, treeLines_member, List.cons_append, List.cons_append] at h
    obtain ⟨hline, hbelow⟩ := List.cons.inj h
    obtain ⟨rfl, htext⟩ := indented_injective hkey hkey' hline
    rw [List.append_assoc, List.append_assoc] at hbelow
    match value, value', htext with
    | .text content, .text content', htext =>
      obtain rfl := Option.some.inj htext
      obtain ⟨rfl, rfl⟩ := treeLines_append_injective hrest hrest' hends hends' hbelow
      exact ⟨rfl, rfl⟩
    | .tree members, .tree members', _ =>
      -- The lines below the item end where the next item of its level comes, or the level ends.
      obtain ⟨rfl, hbehind⟩ := treeLines_append_injective hvalue hvalue'
        (hends.treeLines_append rest) (hends'.treeLines_append rest') hbelow
      obtain ⟨rfl, rfl⟩ := treeLines_append_injective hrest hrest' hends hends' hbehind
      exact ⟨rfl, rfl⟩

/-- **The lines of a nested list give back its tree.** -/
theorem treeLines_injective {t t' : Tree} (ht : Parameter.Canonical t)
    (ht' : Parameter.Canonical t') (h : treeLines 0 t = treeLines 0 t') : t = t' := by
  have hends : EndsLevel 0 [] := fun line hline => nomatch hline
  have hlines : treeLines 0 t ++ [] = treeLines 0 t' ++ [] := by rw [h]
  exact (treeLines_append_injective ht ht' hends hends hlines).1

end ShellDoc.Markdown
