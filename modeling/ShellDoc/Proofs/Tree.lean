import ShellDoc.Metadata
import Mathlib.Data.List.Induction

/-!
# Laws of trees

A tree keeps the order in which its names were first given, and under each name the value that was
given last. This module says so for `Tree.insert`, through the two views of a tree: `Tree.keys` and
`Tree.find?`. A tree built from a list of members has each key of the list once, in the order of
first occurrence (`Tree.keys_ofList`), and each key has the value of its last occurrence
(`Tree.find?_ofList`). A tree whose keys are distinct is rebuilt from its own members
(`Tree.ofList_toList`). Inserting a list into a tree comes to the same as inserting the members of
the tree that is built from the list (`Tree.insertAll_toList_ofList`).
-/

namespace ShellDoc.Tree

/-- The keys of a tree in order. -/
def keys (t : Tree) : List Text :=
  t.toList.map Prod.fst

/-! ## One insertion -/

@[simp] theorem keys_member (key : Text) (value : Value) (rest : Tree) :
    (Tree.member key value rest).keys = key :: rest.keys := rfl

@[simp] theorem isEmpty_insert (name : Text) (content : Value) (t : Tree) :
    (t.insert name content).isEmpty = false := by
  cases t with
  | empty => rfl
  | member key value rest =>
    unfold insert
    split <;> rfl

@[simp] theorem find?_insert_self (name : Text) (content : Value) :
    ∀ t : Tree, (t.insert name content).find? name = some content
  | .empty => by rw [insert, find?, if_pos rfl]
  | .member key value rest => by
    unfold insert
    split
    next h => rw [find?, if_pos h]
    next h => rw [find?, if_neg h, find?_insert_self name content rest]

theorem find?_insert_of_ne {name other : Text} (h : name ≠ other) (content : Value) :
    ∀ t : Tree, (t.insert name content).find? other = t.find? other
  | .empty => by simp only [insert, find?, if_neg h]
  | .member key value rest => by
    unfold insert
    split
    next hkey =>
      subst hkey
      simp only [find?, if_neg h]
    next => simp only [find?, find?_insert_of_ne h content rest]

/-- Of two insertions under one name the second counts. -/
theorem insert_insert_self (name : Text) (first second : Value) :
    ∀ t : Tree, (t.insert name first).insert name second = t.insert name second
  | .empty => by simp only [insert, ↓reduceIte]
  | .member key value rest => by
    by_cases h : key = name
    · simp only [insert, if_pos h]
    · simp only [insert, if_neg h, insert_insert_self name first second rest]

/-- A new name goes behind the others, and a name that is there keeps its place. -/
theorem keys_insert (name : Text) (content : Value) :
    ∀ t : Tree, (t.insert name content).keys = if name ∈ t.keys then t.keys else t.keys ++ [name]
  | .empty => rfl
  | .member key value rest => by
    by_cases h : key = name
    · simp only [insert, keys_member, List.mem_cons, h, true_or, ↓reduceIte]
    · simp only [insert, if_neg h, keys_member, keys_insert name content rest, List.mem_cons,
        Ne.symm h, false_or]
      split <;> rfl

theorem mem_keys_insert {name key : Text} {content : Value} {t : Tree} :
    key ∈ (t.insert name content).keys ↔ key = name ∨ key ∈ t.keys := by
  rw [keys_insert]
  split
  next hname => exact ⟨.inr, fun h => h.elim (fun heq => heq ▸ hname) id⟩
  next => rw [List.mem_append, List.mem_singleton, or_comm]

/-! ## Trees built from lists -/

theorem ofList_concat (members : List (Text × Value)) (m : Text × Value) :
    ofList (members ++ [m]) = (ofList members).insert m.1 m.2 := by
  simp only [ofList, List.foldl_append, List.foldl_cons, List.foldl_nil]

/-- A tree built from a list has the keys of the list, each once, in the order in which they first
occur. -/
theorem keys_ofList (members : List (Text × Value)) :
    (ofList members).keys = (members.map Prod.fst).eraseDups := by
  induction members using List.reverseRecOn with
  | nil => rfl
  | append_singleton members m ih =>
    rw [ofList_concat, keys_insert, ih, List.map_append, List.eraseDups_append, List.removeAll]
    by_cases h : m.1 ∈ members.map Prod.fst
    · simp only [List.mem_eraseDups, List.map_cons, List.map_nil, List.filter_cons,
        List.elem_eq_mem, h, decide_true, Bool.not_true, Bool.false_eq_true, ↓reduceIte,
        List.filter_nil, List.eraseDups_nil, List.append_nil]
    · simp only [List.mem_eraseDups, List.map_cons, List.map_nil, List.filter_cons,
        List.elem_eq_mem, h, decide_false, Bool.not_false, ↓reduceIte, List.filter_nil,
        List.eraseDups_cons, List.eraseDups_nil]

/-- In a tree built from a list each name has the value of its last occurrence. -/
theorem find?_ofList (members : List (Text × Value)) (name : Text) :
    (ofList members).find? name = members.reverse.lookup name := by
  induction members using List.reverseRecOn with
  | nil => rfl
  | append_singleton members m ih =>
    rw [ofList_concat, List.reverse_concat, List.lookup_cons]
    by_cases h : name = m.1
    · subst h
      simp only [find?_insert_self, beq_self_eq_true]
    · simp only [find?_insert_of_ne (Ne.symm h), ih, beq_eq_false_iff_ne.mpr h]

theorem nodup_keys_insert (name : Text) (content : Value) {t : Tree} (h : t.keys.Nodup) :
    (t.insert name content).keys.Nodup := by
  rw [keys_insert]
  split
  next => exact h
  next hnew =>
    refine List.nodup_append.mpr ⟨h, List.pairwise_singleton _ name, fun a ha b hb heq => hnew ?_⟩
    rw [← List.mem_singleton.mp hb, ← heq]
    exact ha

theorem nodup_keys_ofList (members : List (Text × Value)) : (ofList members).keys.Nodup := by
  induction members using List.reverseRecOn with
  | nil => exact List.nodup_nil
  | append_singleton members m ih =>
    rw [ofList_concat]
    exact nodup_keys_insert m.1 m.2 ih

theorem forall_mem_toList_insert {P : Text × Value → Prop} {name : Text} {content : Value}
    (hnew : P (name, content)) :
    ∀ {t : Tree}, (∀ m ∈ t.toList, P m) → ∀ m ∈ (t.insert name content).toList, P m
  | .empty, _ => List.forall_mem_cons.mpr ⟨hnew, fun _ hm => nomatch hm⟩
  | .member key value rest, h => by
    obtain ⟨hfirst, hrest⟩ := List.forall_mem_cons.mp h
    unfold insert
    split
    next hkey =>
      subst hkey
      exact List.forall_mem_cons.mpr ⟨hnew, hrest⟩
    next => exact List.forall_mem_cons.mpr ⟨hfirst, forall_mem_toList_insert hnew hrest⟩

theorem forall_mem_toList_ofList {P : Text × Value → Prop} {members : List (Text × Value)}
    (h : ∀ m ∈ members, P m) : ∀ m ∈ (ofList members).toList, P m := by
  induction members using List.reverseRecOn with
  | nil => exact fun m hm => nomatch hm
  | append_singleton members m ih =>
    rw [ofList_concat]
    refine forall_mem_toList_insert (h m (List.mem_append_right members List.mem_cons_self)) ?_
    exact ih fun m hm => h m (List.mem_append_left _ hm)

/-! ## Lists inserted into trees -/

/-- Gives the names of a list their values one by one. -/
def insertAll (members : List (Text × Value)) (t : Tree) : Tree :=
  members.foldl (fun tree (name, content) => tree.insert name content) t

theorem insertAll_cons (m : Text × Value) (members : List (Text × Value)) (t : Tree) :
    insertAll (m :: members) t = insertAll members (t.insert m.1 m.2) := rfl

theorem insertAll_append (members others : List (Text × Value)) (t : Tree) :
    insertAll (members ++ others) t = insertAll others (insertAll members t) :=
  List.foldl_append

theorem ofList_append (members others : List (Text × Value)) :
    ofList (members ++ others) = (ofList members).insertAll others :=
  List.foldl_append

/-- Insertions under two names can be exchanged when the place of one of the names is settled. -/
theorem insert_insert_comm {name other : Text} (hne : other ≠ name) (content otherContent : Value) :
    ∀ {t : Tree}, name ∈ t.keys →
      (t.insert other otherContent).insert name content =
        (t.insert name content).insert other otherContent
  | .empty, hname => absurd hname List.not_mem_nil
  | .member key value rest, hname => by
    by_cases hkey : key = name
    · subst hkey
      simp only [insert, if_neg (Ne.symm hne), if_true]
    · have hrest : name ∈ rest.keys := (List.mem_cons.mp hname).resolve_left (Ne.symm hkey)
      by_cases hother : key = other
      · simp only [insert, if_pos hother, if_neg hkey]
      · simp only [insert, if_neg hother, if_neg hkey, insert_insert_comm hne _ _ hrest]

/-- A name that a tree has, and a list has not, may be given its value before the list or after it. -/
theorem insertAll_insert {name : Text} (content : Value) {members : List (Text × Value)}
    (hmembers : name ∉ members.map Prod.fst) {t : Tree} (hname : name ∈ t.keys) :
    (t.insert name content).insertAll members = (t.insertAll members).insert name content := by
  induction members generalizing t with
  | nil => rfl
  | cons m rest ih =>
    obtain ⟨hfirst, hrest⟩ := not_or.mp (List.mem_cons.not.mp hmembers)
    have hkept : name ∈ (t.insert m.1 m.2).keys := mem_keys_insert.mpr (.inr hname)
    rw [insertAll_cons, insertAll_cons, ← insert_insert_comm (Ne.symm hfirst) _ _ hname,
      ih hrest hkept]

/-- One more insertion into a tree is one more after its members have been inserted elsewhere. If the
tree has the name already, its earlier value is inserted first, and then replaced. -/
theorem insertAll_toList_insert (name : Text) (content : Value) :
    ∀ {u : Tree}, u.keys.Nodup → ∀ t : Tree,
      t.insertAll (u.insert name content).toList = (t.insertAll u.toList).insert name content
  | .empty, _, _ => rfl
  | .member key value rest, hu, t => by
    obtain ⟨hkey, hrest⟩ := List.nodup_cons.mp hu
    by_cases hname : key = name
    · subst hname
      have hthere : key ∈ (t.insert key value).keys := mem_keys_insert.mpr (.inl rfl)
      rw [insert, if_pos rfl, toList, toList, insertAll_cons, insertAll_cons,
        ← insertAll_insert content hkey hthere, insert_insert_self]
    · rw [insert, if_neg hname, toList, toList, insertAll_cons, insertAll_cons,
        insertAll_toList_insert name content hrest]

/-- **A list may be made a tree before it is inserted**: names that it repeats come to the same. -/
theorem insertAll_toList_ofList (members : List (Text × Value)) (t : Tree) :
    t.insertAll (ofList members).toList = t.insertAll members := by
  induction members using List.reverseRecOn with
  | nil => rfl
  | append_singleton members m ih =>
    rw [ofList_concat, insertAll_toList_insert m.1 m.2 (nodup_keys_ofList members), ih,
      insertAll_append]
    rfl

/-! ## Trees with distinct keys -/

theorem toList_insert_of_not_mem {name : Text} (content : Value) :
    ∀ {t : Tree}, name ∉ t.keys → (t.insert name content).toList = t.toList ++ [(name, content)]
  | .empty, _ => rfl
  | .member key value rest, h => by
    obtain ⟨hkey, hrest⟩ := not_or.mp (List.mem_cons.not.mp h)
    rw [insert, if_neg (Ne.symm hkey), toList, toList, toList_insert_of_not_mem content hrest,
      List.cons_append]

theorem eq_of_toList_eq : ∀ {t u : Tree}, t.toList = u.toList → t = u
  | .empty, .empty, _ => rfl
  | .empty, .member .., h => absurd h.symm (List.cons_ne_nil _ _)
  | .member .., .empty, h => absurd h (List.cons_ne_nil _ _)
  | .member key value rest, .member key' value' rest', h => by
    simp only [toList, List.cons.injEq, Prod.mk.injEq] at h
    obtain ⟨⟨rfl, rfl⟩, hrest⟩ := h
    rw [eq_of_toList_eq hrest]

/-- A list with distinct names is the list of members of its tree. -/
theorem toList_ofList {members : List (Text × Value)} (h : (members.map Prod.fst).Nodup) :
    (ofList members).toList = members := by
  induction members using List.reverseRecOn with
  | nil => rfl
  | append_singleton members m ih =>
    rw [List.map_append, List.nodup_append] at h
    obtain ⟨hmembers, -, hdisjoint⟩ := h
    have hkeys : (ofList members).keys = members.map Prod.fst := by rw [keys, ih hmembers]
    have hnew : m.1 ∉ (ofList members).keys := by
      intro hmem
      rw [hkeys] at hmem
      exact hdisjoint m.1 hmem m.1 List.mem_cons_self rfl
    rw [ofList_concat, toList_insert_of_not_mem m.2 hnew, ih hmembers]

/-- A tree with distinct keys is rebuilt from its members. -/
theorem ofList_toList {t : Tree} (h : t.keys.Nodup) : ofList t.toList = t :=
  eq_of_toList_eq (toList_ofList h)

end ShellDoc.Tree
