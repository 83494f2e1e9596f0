import ShellDoc.Proofs.Script.Header
import ShellDoc.Proofs.Script.Run
import ShellDoc.Proofs.Section.Canonical

/-!
# The form of scanned functions

Which functions can come out of a script. The name is made of the characters of names; the body is a
join of lines of which none is empty, and which the reader would take for other lines again; the
metadata has the form that a comment gives it.

The invariant is that of the function which is open (`next_canonical`): a header starts it with an
empty body, and every line that is added is one that has been read as another line.
-/

namespace ShellDoc.Script

/-- A line of a body as the reader keeps it: trimmed, not empty, and of no other kind. -/
def IsBodyLine (marker : Char) (line : Text) : Prop :=
  Comment.IsBare line ∧ line ≠ [] ∧ lineKind marker line = .other

/-- A function that a script may give. -/
structure Canonical (marker : Char) (f : FunctionDoc) : Prop where
  name : IsName f.name
  body : ∃ pieces, (∀ piece ∈ pieces, IsBodyLine marker piece) ∧ f.body = Text.join ['\n'] pieces
  metadata : ∀ tree ∈ f.metadata?, Comment.Canonical tree

/-! ## One line and all lines -/

theorem isName_of_lineKind {marker : Char} {line name : Text}
    (h : lineKind marker line = .header name) : IsName name := by
  unfold lineKind at h
  split at h
  next => cases h
  next =>
    split at h
    next hname =>
      cases h
      exact isName_of_headerName? hname
    next => split at h <;> cases h

theorem canonical_extendBody {marker : Char} {f : FunctionDoc} (hf : Canonical marker f)
    {line : Text} (hbare : Comment.IsBare line) (hkind : lineKind marker line = .other) :
    Canonical marker { f with body := extendBody f.body line } := by
  obtain ⟨pieces, hpieces, hbody⟩ := hf.body
  refine ⟨hf.name, ⟨pieces ++ if line = [] then [] else [line], ?_, ?_⟩, hf.metadata⟩
  · rw [List.forall_mem_append]
    refine ⟨hpieces, fun piece hpiece => ?_⟩
    split at hpiece
    next => exact absurd hpiece List.not_mem_nil
    next hne =>
      rw [List.mem_singleton.mp hpiece]
      exact ⟨hbare, hne, hkind⟩
  · rw [← extendBody_join fun piece hpiece => (hpieces piece hpiece).2.1, ← hbody]

theorem canonical_metadataOf? (marker : Char) (pending : List Text) :
    ∀ tree ∈ metadataOf? marker pending, Comment.Canonical tree := by
  intro tree htree
  unfold metadataOf? at htree
  split at htree
  next => cases htree
  next =>
    rw [← Option.some.inj htree]
    exact Comment.canonical_metadata marker _

/-- **One line** keeps the open function in the form, and closes none that has another. -/
theorem next_canonical {marker : Char} (number : Nat) {line : Text} (hline : Comment.IsBare line)
    {reading : Reading} (h : ∀ f ∈ reading.current?, Canonical marker f) :
    (∀ f ∈ (reading.next marker number line).1.current?, Canonical marker f) ∧
      ∀ f ∈ (reading.next marker number line).2, Canonical marker f := by
  have hnone : ∀ f ∈ (none : Option FunctionDoc), Canonical marker f := fun f hf => nomatch hf
  unfold Reading.next
  split
  next => exact ⟨h, hnone⟩
  next _ _ name hkind =>
    refine ⟨fun f hf => ?_, hnone⟩
    rw [← Option.some.inj hf]
    refine ⟨isName_of_lineKind hkind, ⟨[], (fun piece hpiece => nomatch hpiece), rfl⟩, ?_⟩
    exact canonical_metadataOf? marker reading.pending
  next f _ hcurrent => exact ⟨hnone, fun g hg => h g (hcurrent.trans hg)⟩
  next => exact ⟨h, hnone⟩
  next f hkind hcurrent =>
    refine ⟨fun g hg => ?_, hnone⟩
    rw [← Option.some.inj hg]
    exact canonical_extendBody (h f hcurrent) hline hkind
  next => exact ⟨h, hnone⟩

theorem closedBy_canonical {marker : Char} {lines : List Text}
    (hlines : ∀ line ∈ lines, Comment.IsBare line) (number : Nat) {reading : Reading}
    (h : ∀ f ∈ reading.current?, Canonical marker f) :
    ∀ f ∈ closedBy marker number reading lines, Canonical marker f := by
  induction lines generalizing number reading with
  | nil => exact fun f hf => nomatch hf
  | cons line rest ih =>
    obtain ⟨hline, hrest⟩ := List.forall_mem_cons.mp hlines
    obtain ⟨hopen, hclosed⟩ := next_canonical number hline h
    rw [closedBy, List.forall_mem_append]
    exact ⟨fun f hf => hclosed f (Option.mem_toList.mp hf), ih hrest (number + 1) hopen⟩

/-- **The functions of a script are canonical.** -/
theorem canonical_functions (marker : Char) (script : Text) :
    ∀ f ∈ functions marker script, Canonical marker f := by
  rw [functions, functionsFrom_eq_closedBy]
  refine closedBy_canonical (fun line hline => ?_) 1 (fun f hf => nomatch hf)
  obtain ⟨raw, hraw, rfl⟩ := List.mem_map.mp hline
  refine ⟨Text.trim_trim raw, fun hmem => ?_⟩
  exact Text.not_mem_of_mem_splitOn '\n' script raw hraw (Text.mem_of_mem_trim hmem)

end ShellDoc.Script
