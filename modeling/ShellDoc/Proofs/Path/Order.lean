import Mathlib.Data.List.Lex
import Mathlib.Data.List.Sort
import ShellDoc.Path.Order

/-!
# Laws of the order of paths

The order of components is strict and total, and so is that of their lists
(`isStrictTotalOrder_listBefore`). Paths with the same components, and no others, come neither before
nor behind each other.

Inserting keeps a list ascending (`ascending_insertAll`) and adds the components that are new
(`mem_components_insertAll`). So the components of what has been inserted do not depend on the order
in which it was (`map_components_eq`).
-/

namespace ShellDoc

/-! ## Lists -/

section Lists

variable {α : Type} {before : α → α → Bool} [IsStrictTotalOrder α fun a b => before a b = true]

theorem listBefore_iff_lex {as bs : List α} :
    listBefore before as bs = true ↔ List.Lex (fun a b => before a b = true) as bs := by
  induction as generalizing bs with
  | nil =>
    cases bs with
    | nil => exact iff_of_false Bool.false_ne_true fun h => nomatch h
    | cons b bs => exact iff_of_true rfl .nil
  | cons a as ih =>
    cases bs with
    | nil => exact iff_of_false Bool.false_ne_true fun h => nomatch h
    | cons b bs =>
      rw [listBefore, Bool.or_eq_true, Bool.and_eq_true, Bool.not_eq_true', ih]
      constructor
      · rintro (hfirst | ⟨hnot, hrest⟩)
        · exact .rel hfirst
        · by_cases hfirst : before a b = true
          · exact .rel hfirst
          · obtain rfl : a = b := Std.Trichotomous.trichotomous
              (r := fun a b => before a b = true) a b hfirst (by simp [hnot])
            exact .cons hrest
      · intro h
        cases h with
        | rel hfirst => exact .inl hfirst
        | cons hrest =>
          have hself : ¬ before a a = true := irrefl_of (fun a b => before a b = true) a
          exact .inr ⟨by simpa using hself, hrest⟩

/-- Lists are in a strict total order if their members are. -/
instance isStrictTotalOrder_listBefore :
    IsStrictTotalOrder (List α) fun as bs => listBefore before as bs = true where
  trichotomous as bs hnot hnot' := by
    rw [listBefore_iff_lex] at hnot hnot'
    exact Std.Trichotomous.trichotomous as bs hnot hnot'
  irrefl as h := by
    rw [listBefore_iff_lex] at h
    exact irrefl_of (List.Lex fun a b => before a b = true) as h
  trans as bs cs h h' := by
    rw [listBefore_iff_lex] at h h' ⊢
    exact List.lex_trans (fun hab hbc => trans_of (fun a b => before a b = true) hab hbc) h h'

end Lists

/-! ## Characters, texts and components -/

instance isStrictTotalOrder_charBefore :
    IsStrictTotalOrder Char fun c d => Text.charBefore c d = true where
  trichotomous c d hnot hnot' := by
    simp only [Text.charBefore, decide_eq_true_eq] at hnot hnot'
    exact Char.toNat_inj.mp (by omega)
  irrefl c := by simp [Text.charBefore]
  trans c d e := by
    simp only [Text.charBefore, decide_eq_true_eq]
    exact Nat.lt_trans

instance isStrictTotalOrder_textBefore :
    IsStrictTotalOrder Text fun t u => Text.before t u = true :=
  inferInstanceAs (IsStrictTotalOrder (List Char) fun t u => listBefore Text.charBefore t u = true)

namespace Path

/-- The place of the kind of a component. -/
def Component.rank : Component → Nat
  | .root => 0
  | .current => 1
  | .parent => 2
  | .name _ => 3

/-- Components of different kinds are in the order of their kinds, and names in that of texts. -/
theorem Component.before_iff {c d : Component} :
    c.before d = true ↔
      c.rank < d.rank ∨ ∃ t u, c = .name t ∧ d = .name u ∧ Text.before t u = true := by
  cases c <;> cases d <;> simp [before, rank]

theorem Component.eq_or_names_of_rank_eq {c d : Component} (h : c.rank = d.rank) :
    c = d ∨ ∃ t u, c = .name t ∧ d = .name u := by
  cases c <;> cases d <;> simp [rank] at h ⊢

instance isStrictTotalOrder_componentBefore :
    IsStrictTotalOrder Component fun c d => c.before d = true where
  trichotomous c d hnot hnot' := by
    rw [Component.before_iff, not_or] at hnot hnot'
    have hrank : c.rank = d.rank := by omega
    rcases Component.eq_or_names_of_rank_eq hrank with rfl | ⟨t, u, rfl, rfl⟩
    · rfl
    · have htexts : t = u := Std.Trichotomous.trichotomous (r := fun t u => Text.before t u = true)
        t u (fun h => hnot.2 ⟨t, u, rfl, rfl, h⟩) fun h => hnot'.2 ⟨u, t, rfl, rfl, h⟩
      rw [htexts]
  irrefl c h := by
    rcases Component.before_iff.mp h with hrank | ⟨t, u, rfl, hname, hbefore⟩
    · exact Nat.lt_irrefl _ hrank
    · obtain rfl := Component.name.inj hname
      exact irrefl_of (fun t u => Text.before t u = true) t hbefore
  trans c d e h h' := by
    rw [Component.before_iff] at h h' ⊢
    rcases h with hrank | ⟨t, u, rfl, rfl, hbefore⟩
    · rcases h' with hrank' | ⟨u, v, rfl, rfl, _⟩
      · exact .inl (Nat.lt_trans hrank hrank')
      · exact .inl hrank
    · rcases h' with hrank' | ⟨u', v, hname, rfl, hbefore'⟩
      · exact .inl hrank'
      · obtain rfl := Component.name.inj hname
        exact .inr ⟨t, v, rfl, rfl, trans_of (fun t u => Text.before t u = true) hbefore hbefore'⟩

/-! ## Ascending lists of paths -/

/-- The order of lists of components. -/
abbrev componentsBefore (c d : List Component) : Prop :=
  listBefore Component.before c d = true

/-- Whether each path of a list comes before all later ones. -/
def Ascending (paths : List Path) : Prop :=
  (paths.map components).Pairwise componentsBefore

variable {p q : Path} {paths ascending : List Path}

theorem ascending_nil : Ascending [] :=
  .nil

theorem ascending_filter (h : Ascending paths) (f : Path → Bool) : Ascending (paths.filter f) :=
  h.sublist (List.filter_sublist.map components)

theorem components_eq_of_not_before (h : ¬ p.before q = true) (h' : ¬ q.before p = true) :
    p.components = q.components :=
  Std.Trichotomous.trichotomous (r := componentsBefore) _ _ h h'

/-- Inserting a path adds its components if they are new. -/
theorem mem_components_insert {c : List Component} :
    c ∈ (insert p ascending).map components ↔
      c = p.components ∨ c ∈ ascending.map components := by
  induction ascending with
  | nil => simp [insert]
  | cons q rest ih =>
    rw [insert]
    split
    next => rw [List.map_cons, List.mem_cons]
    next hnot =>
      split
      next => rw [List.map_cons, List.mem_cons, ih, List.map_cons, List.mem_cons, or_left_comm]
      next hnot' =>
        rw [components_eq_of_not_before hnot hnot', List.map_cons, List.mem_cons, or_self_left]

theorem ascending_insert (h : Ascending ascending) (p : Path) : Ascending (insert p ascending) := by
  induction ascending with
  | nil => exact List.pairwise_singleton _ _
  | cons q rest ih =>
    obtain ⟨hfirst, hrest⟩ := List.pairwise_cons.mp h
    rw [insert]
    split
    next hbefore =>
      refine List.pairwise_cons.mpr ⟨List.forall_mem_cons.mpr ⟨hbefore, fun c hc => ?_⟩, h⟩
      exact trans_of componentsBefore hbefore (hfirst c hc)
    next =>
      split
      next hbehind =>
        refine List.pairwise_cons.mpr ⟨fun c hc => ?_, ih hrest⟩
        rcases mem_components_insert.mp hc with rfl | hc
        · exact hbehind
        · exact hfirst c hc
      next => exact h

theorem mem_components_insertAll {c : List Component} :
    c ∈ (insertAll paths ascending).map components ↔
      c ∈ paths.map components ∨ c ∈ ascending.map components := by
  induction paths generalizing ascending with
  | nil => simp [insertAll]
  | cons p rest ih =>
    rw [insertAll, List.foldl_cons, ← insertAll, ih, mem_components_insert, List.map_cons,
      List.mem_cons, or_left_comm, or_assoc]

theorem ascending_insertAll (h : Ascending ascending) (paths : List Path) :
    Ascending (insertAll paths ascending) := by
  induction paths generalizing ascending with
  | nil => exact h
  | cons p rest ih => exact ih (ascending_insert h p)

/-- What depends on components alone is found of what was inserted just as of what was to be. -/
theorem mem_components_filter_insertAll {f : Path → Bool} {c : List Component}
    (hf : ∀ p q : Path, p.components = q.components → f p = f q) :
    c ∈ ((insertAll paths []).filter f).map components ↔ c ∈ (paths.filter f).map components := by
  have hforward : ∀ paths paths' : List Path,
      (∀ c, c ∈ paths.map components → c ∈ paths'.map components) →
      c ∈ (paths.filter f).map components → c ∈ (paths'.filter f).map components := by
    intro paths paths' hmem hc
    obtain ⟨p, hp, rfl⟩ := List.mem_map.mp hc
    obtain ⟨hp, hfp⟩ := List.mem_filter.mp hp
    obtain ⟨q, hq, hcomponents⟩ := List.mem_map.mp (hmem _ (List.mem_map_of_mem hp))
    have hfq : f q = true := (hf q p hcomponents).trans hfp
    exact List.mem_map.mpr ⟨q, List.mem_filter.mpr ⟨hq, hfq⟩, hcomponents⟩
  have hmem : ∀ c, c ∈ (insertAll paths []).map components ↔ c ∈ paths.map components := by
    intro c
    rw [mem_components_insertAll, List.map_nil, or_iff_left List.not_mem_nil]
  exact ⟨hforward _ _ fun c => (hmem c).mp, hforward _ _ fun c => (hmem c).mpr⟩

/-- **Ascending lists with the same components are the same**, component by component. -/
theorem map_components_eq {ascending' : List Path} (h : Ascending ascending)
    (h' : Ascending ascending')
    (hmem : ∀ c, c ∈ ascending.map components ↔ c ∈ ascending'.map components) :
    ascending.map components = ascending'.map components :=
  List.Pairwise.eq_of_mem_iff h h' hmem

/-- What depends on components alone is the same for lists with the same components. -/
theorem map_eq_map_of_components {α : Type} {f g : Path → α} {paths' : List Path}
    (h : paths.map components = paths'.map components)
    (hsame : ∀ p ∈ paths, ∀ q ∈ paths', p.components = q.components → f p = g q) :
    paths.map f = paths'.map g := by
  induction paths generalizing paths' with
  | nil =>
    obtain rfl : paths' = [] := List.map_eq_nil_iff.mp h.symm
    rfl
  | cons p rest ih =>
    obtain ⟨q, rest', rfl, hq, hrest⟩ := List.map_eq_cons_iff.mp h.symm
    have htail := ih hrest.symm fun r hr r' hr' =>
      hsame r (List.mem_cons_of_mem p hr) r' (List.mem_cons_of_mem q hr')
    rw [List.map_cons, List.map_cons, htail,
      hsame p List.mem_cons_self q List.mem_cons_self hq.symm]

/-- A path behind all others goes to the end. -/
theorem insert_of_forall_before (h : ∀ q ∈ ascending, q.before p = true) :
    insert p ascending = ascending ++ [p] := by
  induction ascending with
  | nil => rfl
  | cons q rest ih =>
    obtain ⟨hfirst, hrest⟩ := List.forall_mem_cons.mp h
    have hnot : ¬ p.before q = true := asymm_of componentsBefore hfirst
    rw [insert, if_neg hnot, if_pos hfirst, ih hrest, List.cons_append]

/-- Ascending paths behind all others go to the end as they are. -/
theorem insertAll_of_ascending (h : Ascending (ascending ++ paths)) :
    insertAll paths ascending = ascending ++ paths := by
  induction paths generalizing ascending with
  | nil => exact (List.append_nil ascending).symm
  | cons p rest ih =>
    have hbefore : ∀ q ∈ ascending, q.before p = true := by
      rw [Ascending, List.map_append, List.pairwise_append] at h
      intro q hq
      exact h.2.2 _ (List.mem_map_of_mem hq) _ List.mem_cons_self
    rw [List.append_cons] at h ⊢
    rw [insertAll, List.foldl_cons, ← insertAll, insert_of_forall_before hbefore, ih h]

end Path

end ShellDoc
