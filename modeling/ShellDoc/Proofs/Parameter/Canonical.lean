import ShellDoc.Proofs.Parameter.Noise
import ShellDoc.Proofs.Text
import ShellDoc.Proofs.Tree

/-!
# The form of parameters

Which trees can come out of parameter lines (`canonical_tree`). At each level the names are distinct
and could stand in a parameter line, and the texts could stand beside one.
-/

namespace ShellDoc.Parameter

/-- A name of a parameter: not empty, and made of the characters of names. -/
def IsName (name : Text) : Prop :=
  name ≠ [] ∧ ∀ c ∈ name, isNameChar c = true

theorem isSpace_of_isNameChar {c : Char} (h : isNameChar c = true) : Text.isSpace c = false := by
  rcases (Bool.or_eq_true _ _).mp h with halnum | hunderscore
  · exact Text.isSpace_of_isAlphanum halnum
  · rw [beq_iff_eq.mp hunderscore]
    decide

/-- A text that may stand beside a parameter: not empty, trimmed, and on one line. -/
def IsContent (content : Text) : Prop :=
  content ≠ [] ∧ content.trim = content ∧ '\n' ∉ content

mutual

/-- A value that parameter lines can spell out. -/
def CanonicalValue : Value → Prop
  | .text content => IsContent content
  | .tree below => Canonical below

/-- A tree that parameter lines can spell out: the names of each level are names of parameters and
differ from each other. -/
def Canonical : Tree → Prop
  | .empty => True
  | .member key value rest => IsName key ∧ key ∉ rest.keys ∧ CanonicalValue value ∧ Canonical rest

end

theorem nodup_keys_of_canonical : ∀ {t : Tree}, Canonical t → t.keys.Nodup
  | .empty, _ => List.nodup_nil
  | .member _ _ _, ⟨_, hnew, _, hrest⟩ =>
    List.nodup_cons.mpr ⟨hnew, nodup_keys_of_canonical hrest⟩

theorem canonical_insert {name : Text} {content : Value} (hname : IsName name)
    (hcontent : CanonicalValue content) :
    ∀ {t : Tree}, Canonical t → Canonical (t.insert name content)
  | .empty, _ => ⟨hname, List.not_mem_nil, hcontent, trivial⟩
  | .member key value rest, ⟨hkey, hnew, hvalue, hrest⟩ => by
    unfold Tree.insert
    split
    next => exact ⟨hkey, hnew, hcontent, hrest⟩
    next hne =>
      refine ⟨hkey, ?_, hvalue, canonical_insert hname hcontent hrest⟩
      rw [Tree.mem_keys_insert, not_or]
      exact ⟨hne, hnew⟩

theorem canonical_ofList {members : List (Text × Value)}
    (h : ∀ m ∈ members, IsName m.1 ∧ CanonicalValue m.2) : Canonical (.ofList members) := by
  induction members using List.reverseRecOn with
  | nil => trivial
  | append_singleton members m ih =>
    obtain ⟨hname, hvalue⟩ := h m (List.mem_append_right members List.mem_cons_self)
    rw [Tree.ofList_concat]
    exact canonical_insert hname hvalue (ih fun m hm => h m (List.mem_append_left _ hm))

theorem parts_of_line? {line : Text} {found : Line} (h : line? line = some found) :
    IsName found.name ∧ '\n' ∉ found.beside := by
  obtain ⟨behind, _, _, hname, hbeside, rfl⟩ := exists_of_line? h
  refine ⟨⟨hname, fun c hc => ?_⟩, hbeside⟩
  exact List.all_eq_true.mp List.all_takeWhile c hc

theorem canonicalValue_value {beside : Text} (hbeside : '\n' ∉ beside) {below : Tree}
    (hbelow : Canonical below) : CanonicalValue (value beside below) := by
  unfold value
  split
  next =>
    unfold Value.ofInline
    split
    next => trivial
    next hne => exact ⟨hne, Text.trim_trim beside, fun hmem => hbeside (Text.mem_of_mem_trim hmem)⟩
  next => exact hbelow

/-- **The reader gives canonical trees**, at every depth and for any lines. -/
theorem canonical_tree (depth : Nat) (lines : List Text) : Canonical (tree depth lines) := by
  unfold tree
  refine canonical_ofList ?_
  induction depth, lines using members.induct with
  | case1 depth =>
    rw [members]
    exact fun m hm => absurd hm List.not_mem_nil
  | case2 depth line rest hline ih =>
    rw [members_cons_of_none hline]
    exact ih
  | case3 depth line rest found hline ihRegion ihRest =>
    obtain ⟨hname, hbeside⟩ := parts_of_line? (lineAt?_eq_some_iff.mp hline).1
    rw [members_cons_of_some hline]
    refine List.forall_mem_cons.mpr ⟨⟨hname, ?_⟩, ihRest⟩
    exact canonicalValue_value hbeside (canonical_ofList ihRegion)

end ShellDoc.Parameter
