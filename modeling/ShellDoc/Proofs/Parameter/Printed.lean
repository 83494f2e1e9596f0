import ShellDoc.Proofs.Parameter.Canonical

/-!
# Parameters printed

A tree of parameters is printed in pre-order, one line a parameter, with one dash more for each level
below the first. The reader of parameters inverts this on canonical trees (`tree_printed_append`).

What makes the inversion work is that the lines of a parameter's tree are its region: all of them
stand deeper, and the next line of the printed tree does not (`region_printed`).
-/

namespace ShellDoc.Parameter

/-! ## Printed lines -/

/-- A parameter line: dashes, the name behind an at sign, and what follows the name. -/
def printedLine (depth : Nat) (name tail : Text) : Text :=
  List.replicate depth '-' ++ '@' :: (name ++ tail)

theorem trimStart_printedLine (depth : Nat) (name tail : Text) :
    Text.trimStart (printedLine depth name tail) = printedLine depth name tail := by
  cases depth with
  | zero => exact Text.trimStart_cons (by decide) _
  | succ depth =>
    rw [printedLine, List.replicate_succ, List.cons_append]
    exact Text.trimStart_cons (by decide) _

/-- A printed line has nothing to trim if nothing is to be trimmed behind its dashes. -/
theorem trim_printedLine (depth : Nat) {name tail : Text}
    (h : Text.trimEnd ('@' :: (name ++ tail)) = '@' :: (name ++ tail)) :
    Text.trim (printedLine depth name tail) = printedLine depth name tail := by
  rw [Text.trim, trimStart_printedLine, printedLine,
    Text.trimEnd_append (List.cons_ne_nil _ _) h]

theorem dropWhile_printedLine (depth : Nat) (name tail : Text) :
    (printedLine depth name tail).dropWhile (· == '-') = '@' :: (name ++ tail) := by
  rw [printedLine, Text.dropWhile_replicate_append]
  exact List.dropWhile_cons_of_neg (by decide)

theorem dashes_printedLine (depth : Nat) {name tail : Text}
    (h : Text.trimEnd ('@' :: (name ++ tail)) = '@' :: (name ++ tail)) :
    dashes (printedLine depth name tail) = depth := by
  have hbehind : ('@' :: (name ++ tail)).takeWhile (· == '-') = [] :=
    List.takeWhile_cons_of_neg (by decide)
  rw [dashes, trim_printedLine depth h, printedLine, Text.takeWhile_replicate_append, hbehind,
    List.append_nil, List.length_replicate]

/-- A printed line is read back, when what follows the name cannot be taken for a part of it. -/
theorem lineAt?_printedLine {depth : Nat} (hdepth : 0 < depth) {name tail : Text}
    (hname : IsName name) (htrim : Text.trimEnd ('@' :: (name ++ tail)) = '@' :: (name ++ tail))
    (htail : ∀ c ∈ tail.head?, isNameChar c = false) (hfeed : '\n' ∉ tail.trimStart) :
    lineAt? depth (printedLine depth name tail) = some ⟨depth, name, tail.trimStart⟩ := by
  have hread : (name ++ tail).takeWhile isNameChar = name := Text.takeWhile_append hname.2 htail
  have hrest : (name ++ tail).dropWhile isNameChar = tail := Text.dropWhile_append hname.2 htail
  rw [lineAt?_eq_some_iff]
  refine ⟨?_, rfl⟩
  simp only [line?, trim_printedLine depth htrim, dropWhile_printedLine,
    dashes_printedLine depth htrim, hread, hrest]
  exact if_pos ⟨Nat.ne_of_gt hdepth, hname.1, hfeed⟩

/-! ## Printed trees -/

/-- What follows the name in the line of a parameter: its text behind a space, and nothing if the
parameter has a tree. -/
def tail : Value → Text
  | .text content => ' ' :: content
  | .tree _ => []

mutual

/-- The lines below the line of a parameter, the first level of them with `depth` dashes. -/
def printedBelow (depth : Nat) : Value → List Text
  | .text _ => []
  | .tree below => printed depth below

/-- The lines of a tree in pre-order, the first level of them with `depth` dashes. -/
def printed (depth : Nat) : Tree → List Text
  | .empty => []
  | .member key value rest =>
    printedLine depth key (tail value) :: (printedBelow (depth + 1) value ++ printed depth rest)

end

/-- The line of a canonical parameter has nothing to trim at its end. -/
theorem trimEnd_tail {key : Text} (hkey : IsName key) {value : Value}
    (hvalue : CanonicalValue value) :
    Text.trimEnd ('@' :: (key ++ tail value)) = '@' :: (key ++ tail value) := by
  cases value with
  | text content =>
    obtain ⟨hne, htrim, _⟩ := hvalue
    have hsplit : '@' :: (key ++ tail (.text content)) = ('@' :: key ++ [' ']) ++ content := by
      simp only [tail, List.append_assoc, List.cons_append, List.nil_append]
    rw [hsplit]
    exact Text.trimEnd_append hne (Text.trim_eq_self_iff.mp htrim).2 _
  | tree below =>
    rw [tail, List.append_nil]
    refine Text.trimEnd_eq_self_of_forall (List.forall_mem_cons.mpr ⟨by decide, fun c hc => ?_⟩)
    exact isSpace_of_isNameChar (hkey.2 c hc)

theorem trimStart_tail {content : Text} (h : IsContent content) :
    (tail (.text content)).trimStart = content := by
  rw [tail, Text.trimStart, List.dropWhile_cons_of_pos (by decide)]
  exact (Text.trim_eq_self_iff.mp h.2.1).1

theorem lineAt?_tail {depth : Nat} (hdepth : 0 < depth) {key : Text} (hkey : IsName key)
    {value : Value} (hvalue : CanonicalValue value) :
    lineAt? depth (printedLine depth key (tail value)) =
      some ⟨depth, key, (tail value).trimStart⟩ := by
  refine lineAt?_printedLine hdepth hkey (trimEnd_tail hkey hvalue) ?_ ?_
  · cases value with
    | text content =>
      intro c hc
      cases hc
      decide
    | tree below => exact fun c hc => nomatch hc
  · cases value with
    | text content =>
      rw [trimStart_tail hvalue]
      exact hvalue.2.2
    | tree below => exact List.not_mem_nil

/-- A canonical value is made again from the text beside its parameter and the tree below it. -/
theorem value_tail {v : Value} (h : CanonicalValue v) :
    value (tail v).trimStart (v.tree?.getD .empty) = v := by
  cases v with
  | text content =>
    obtain ⟨hne, htrim, _⟩ := id h
    rw [trimStart_tail h]
    simp only [value, Value.tree?, Option.getD_none, Tree.isEmpty, ↓reduceIte, Value.ofInline, htrim,
      hne]
  | tree below =>
    cases below with
    | empty => rfl
    | member key v rest => rfl

/-- A line that is printed for a canonical value, with no fewer dashes than a given number. -/
def IsPrintedLine (depth : Nat) (line : Text) : Prop :=
  ∃ level key value, depth ≤ level ∧ IsName key ∧ CanonicalValue value ∧
    line = printedLine level key (tail value)

mutual

theorem isPrintedLine_of_mem_printedBelow (depth : Nat) :
    ∀ {v : Value}, CanonicalValue v → ∀ line ∈ printedBelow depth v, IsPrintedLine depth line
  | .text _, _ => fun _ hline => nomatch hline
  | .tree _, h => isPrintedLine_of_mem_printed depth h

/-- The lines of a tree are lines of parameters, none with fewer dashes than the first. -/
theorem isPrintedLine_of_mem_printed (depth : Nat) :
    ∀ {t : Tree}, Canonical t → ∀ line ∈ printed depth t, IsPrintedLine depth line
  | .empty, _ => fun _ hline => nomatch hline
  | .member key v rest, ⟨hkey, _, hvalue, hrest⟩ => by
    rw [printed, List.forall_mem_cons, List.forall_mem_append]
    refine ⟨⟨depth, key, v, Nat.le_refl depth, hkey, hvalue, rfl⟩, fun line hline => ?_,
      isPrintedLine_of_mem_printed depth hrest⟩
    obtain ⟨level, name, value, hlevel, hline⟩ :=
      isPrintedLine_of_mem_printedBelow (depth + 1) hvalue line hline
    exact ⟨level, name, value, Nat.le_of_succ_le hlevel, hline⟩

end

theorem IsPrintedLine.le_dashes {depth : Nat} {line : Text} (h : IsPrintedLine depth line) :
    depth ≤ dashes line := by
  obtain ⟨level, key, value, hlevel, hkey, hvalue, rfl⟩ := h
  rw [dashes_printedLine level (trimEnd_tail hkey hvalue)]
  exact hlevel

theorem IsPrintedLine.trim_eq {depth : Nat} {line : Text} (h : IsPrintedLine depth line) :
    line.trim = line := by
  obtain ⟨level, key, value, _, hkey, hvalue, rfl⟩ := h
  exact trim_printedLine level (trimEnd_tail hkey hvalue)

theorem IsPrintedLine.not_mem {depth : Nat} {line : Text} (h : IsPrintedLine depth line) :
    '\n' ∉ line := by
  obtain ⟨level, key, value, _, hkey, hvalue, rfl⟩ := h
  have htail : '\n' ∉ tail value := by
    cases value with
    | text content => exact fun hmem => hvalue.2.2 (List.mem_of_ne_of_mem (by decide) hmem)
    | tree below => exact List.not_mem_nil
  rw [printedLine, List.mem_append, List.mem_cons, List.mem_append]
  rintro (hdash | hat | hname | hmem)
  · exact absurd (List.eq_of_mem_replicate hdash) (by decide)
  · exact absurd hat (by decide)
  · exact absurd (hkey.2 _ hname) (by decide)
  · exact htail hmem

theorem IsPrintedLine.head?_eq {depth : Nat} (hdepth : 0 < depth) {line : Text}
    (h : IsPrintedLine depth line) : line.head? = some '-' := by
  obtain ⟨level, key, value, hlevel, _, _, rfl⟩ := h
  cases level with
  | zero => exact absurd hlevel (Nat.not_le.mpr hdepth)
  | succ level => rfl

/-- Printed lines have nothing to trim. -/
theorem map_trim_printed (depth : Nat) {t : Tree} (h : Canonical t) :
    (printed depth t).map Text.trim = printed depth t := by
  have htrim : ∀ line ∈ printed depth t, line.trim = line :=
    fun line hline => (isPrintedLine_of_mem_printed depth h line hline).trim_eq
  rw [List.map_congr_left htrim, List.map_id']

/-- The region below a printed parameter is what is printed below it: these lines stand deeper, and
the line behind them, if there is one, does not. -/
theorem region_printed {depth : Nat} {v : Value} (hvalue : CanonicalValue v) {rest : Tree}
    (hrest : Canonical rest) :
    region depth (printedBelow (depth + 1) v ++ printed depth rest) =
      printedBelow (depth + 1) v := by
  have hstop : region depth (printed depth rest) = [] := by
    cases rest with
    | empty => rfl
    | member key v rest =>
      obtain ⟨hkey, _, hv, _⟩ := hrest
      rw [printed, region_cons, if_pos (dashes_printedLine depth (trimEnd_tail hkey hv))]
  rw [region] at hstop ⊢
  rw [List.takeWhile_append_of_pos, hstop, List.append_nil]
  intro line hline
  have hdeep := (isPrintedLine_of_mem_printedBelow (depth + 1) hvalue line hline).le_dashes
  exact bne_iff_ne.mpr (Nat.ne_of_gt hdeep)

mutual

theorem tree_printedBelow {depth : Nat} (hdepth : 0 < depth) :
    ∀ {v : Value}, CanonicalValue v → tree depth (printedBelow depth v) = v.tree?.getD .empty
  | .text _, _ => by
    rw [printedBelow, tree, members]
    rfl
  | .tree below, h => by
    rw [printedBelow, tree, members_printed hdepth h]
    exact Tree.ofList_toList (nodup_keys_of_canonical h)

/-- **The members of a printed tree are those of the tree.** The line of a parameter is read back,
its region is what was printed below it, and this level passes over the region. -/
theorem members_printed {depth : Nat} (hdepth : 0 < depth) :
    ∀ {t : Tree}, Canonical t → members depth (printed depth t) = t.toList
  | .empty, _ => by
    rw [printed, members]
    rfl
  | .member key v rest, ⟨hkey, _, hvalue, hrest⟩ => by
    have hdeeper : ∀ line ∈ printedBelow (depth + 1) v, dashes line ≠ depth := by
      intro line hline
      have hdeep := (isPrintedLine_of_mem_printedBelow (depth + 1) hvalue line hline).le_dashes
      exact Nat.ne_of_gt hdeep
    rw [printed, members_cons_of_some (lineAt?_tail hdepth hkey hvalue),
      region_printed hvalue hrest, tree_printedBelow (Nat.succ_pos depth) hvalue,
      value_tail hvalue, members_append_of_dashes_ne hdeeper, members_printed hdepth hrest,
      Tree.toList]

end

/-- **Printed trees are read back**, also with lines behind them that have fewer dashes. -/
theorem tree_printed_append {depth : Nat} (hdepth : 0 < depth) {t : Tree} (ht : Canonical t)
    {others : List Text} (hothers : ∀ line ∈ others, dashes line < depth) :
    tree depth (printed depth t ++ others) = t := by
  rw [tree, members_append_of_dashes_lt hothers, members_printed hdepth ht]
  exact Tree.ofList_toList (nodup_keys_of_canonical ht)

/-- **Canonical trees are what parameter lines spell out.** Whatever the lines and the depth, the
tree that is read is canonical. Conversely, from one dash on, exactly the canonical trees are read
back from their own lines, with their names in order at every level. -/
theorem canonical_tree_and_canonical_iff :
    (∀ depth lines, Canonical (tree depth lines)) ∧
      ∀ depth t, Canonical t ↔ tree (depth + 1) (printed (depth + 1) t) = t := by
  refine ⟨canonical_tree, ?_⟩
  intro depth t
  constructor
  · intro ht
    have hread := tree_printed_append (Nat.succ_pos depth) ht (List.forall_mem_nil _)
    rwa [List.append_nil] at hread
  · intro hread
    rw [← hread]
    apply canonical_tree

/-- A parameter with parameters below it, one of them with an empty tree, and one with a text. -/
example :
    printed 2 (.ofList [("a".toList, .tree (.ofList [("b".toList, .text "one".toList),
      ("c".toList, .tree .empty)])), ("d".toList, .text "two".toList)]) =
      ["--@a".toList, "---@b one".toList, "---@c".toList, "--@d two".toList] := by
  rfl

end ShellDoc.Parameter
