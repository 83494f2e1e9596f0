import Mathlib.Data.List.TakeWhile
import ShellDoc.Proofs.FileTree.Entry

/-!
# Making directories

Making directories adds directories where nothing was and changes nothing else, whether it succeeds
or not (`grown_createDirectories`). They are the directory asked for and those above it
(`grownAlong_createDirectories`). If it succeeds, the directory is there
(`isDirectory_createDirectories`).
-/

namespace ShellDoc.FileTree

variable {tree before after : FileTree} {p : Path} {location : Location}

/-- Whether a tree arose from another by making directories where nothing was. -/
structure Grown (before after : FileTree) : Prop where
  workingDirectory : after.workingDirectory = before.workingDirectory
  denials : after.denials = before.denials
  node? : ∀ location, after.node? location = before.node? location ∨
    (before.node? location = none ∧ after.node? location = some .directory)

theorem Grown.refl (tree : FileTree) : Grown tree tree :=
  ⟨rfl, rfl, fun _ => .inl rfl⟩

theorem Grown.trans {middle : FileTree} (h : Grown before middle) (h' : Grown middle after) :
    Grown before after := by
  refine ⟨h'.workingDirectory.trans h.workingDirectory, h'.denials.trans h.denials,
    fun location => ?_⟩
  rcases h'.node? location with hsame | ⟨hnone, hmade⟩
  · rw [hsame]
    exact h.node? location
  · rcases h.node? location with hsame | ⟨_, hdirectory⟩
    · exact .inr ⟨hsame ▸ hnone, hmade⟩
    · rw [hdirectory] at hnone
      cases hnone

theorem Grown.keepsDirectories (h : Grown before after) : KeepsDirectories before after := by
  refine ⟨h.workingDirectory, h.denials, fun location hdirectory => ?_⟩
  rcases h.node? location with hsame | ⟨hnone, _⟩
  · rw [hsame, hdirectory]
  · rw [hdirectory] at hnone
    cases hnone

/-- The files are the same. -/
theorem Grown.file_iff (h : Grown before after) (location : Location) (content : ByteArray) :
    after.node? location = some (.file content) ↔ before.node? location = some (.file content) := by
  rcases h.node? location with hsame | ⟨hnone, hdirectory⟩
  · rw [hsame]
  · rw [hnone, hdirectory]
    simp

theorem grown_set (h : tree.node? location = none) : Grown tree (tree.set location .directory) := by
  refine ⟨rfl, rfl, fun other => ?_⟩
  rw [node?_set (ne_nil_of_node?_eq_none h)]
  by_cases hother : other = location
  · rw [if_pos hother]
    exact .inr ⟨hother ▸ h, rfl⟩
  · rw [if_neg hother]
    exact .inl rfl

/-- Whether a tree arose from another by making directories that some of the given paths lead to. -/
structure GrownAlong (paths : List Path) (before after : FileTree) : Prop where
  grown : Grown before after
  exists_path : ∀ location, before.node? location = none → after.node? location ≠ none →
    ∃ p ∈ paths, after.locate p = .ok location

variable {paths : List Path}

theorem GrownAlong.refl (paths : List Path) (tree : FileTree) : GrownAlong paths tree tree :=
  ⟨.refl tree, fun _ hnone hsome => absurd hnone hsome⟩

theorem GrownAlong.trans {middle : FileTree} (h : GrownAlong paths before middle)
    (h' : GrownAlong paths middle after) : GrownAlong paths before after := by
  refine ⟨h.grown.trans h'.grown, fun location hnone hsome => ?_⟩
  cases hmiddle : middle.node? location with
  | none => exact h'.exists_path location hmiddle hsome
  | some node =>
    obtain ⟨p, hp, hlocate⟩ := h.exists_path location hnone (by simp [hmiddle])
    exact ⟨p, hp, h'.grown.keepsDirectories.locate hlocate⟩

theorem GrownAlong.of_subset {paths' : List Path} (h : GrownAlong paths before after)
    (hsubset : paths ⊆ paths') : GrownAlong paths' before after := by
  refine ⟨h.grown, fun location hnone hsome => ?_⟩
  obtain ⟨p, hp, hlocate⟩ := h.exists_path location hnone hsome
  exact ⟨p, hsubset hp, hlocate⟩

/-! ## Slashes at the end of a path -/

theorem exists_withoutEndSlashes (p : Path) :
    ∃ k, p.text = (withoutEndSlashes p).text ++ List.replicate k '/' := by
  obtain ⟨text⟩ := p
  cases text with
  | nil => exact ⟨0, rfl⟩
  | cons c rest =>
    let slashes := rest.reverse.takeWhile (· == '/')
    have hslashes : slashes = List.replicate slashes.length '/' := by
      refine List.eq_replicate_iff.mpr ⟨rfl, fun d hd => ?_⟩
      have hslash : (d == '/') = true := List.mem_takeWhile_imp (p := (· == '/')) hd
      exact eq_of_beq hslash
    have hrest : rest = (rest.reverse.dropWhile (· == '/')).reverse ++ slashes.reverse := by
      rw [← List.reverse_append, List.takeWhile_append_dropWhile, List.reverse_reverse]
    refine ⟨slashes.length, ?_⟩
    rw [hslashes, List.reverse_replicate] at hrest
    exact congrArg (c :: ·) hrest

theorem segments_slashes (t : Text) (k : Nat) :
    (⟨t ++ List.replicate k '/'⟩ : Path).segments =
      (⟨t⟩ : Path).segments ++ List.replicate k [] := by
  induction k with
  | zero => simp
  | succ k ih =>
    rw [List.replicate_succ', ← List.append_assoc, Path.segments_slash, ih, List.replicate_succ',
      List.append_assoc]
    rfl

theorem isAbsolute_withoutEndSlashes (p : Path) :
    (withoutEndSlashes p).isAbsolute = p.isAbsolute := by
  obtain ⟨text⟩ := p
  cases text with
  | nil => rfl
  | cons => rfl

theorem segments_withoutEndSlashes {k : Nat}
    (h : p.text = (withoutEndSlashes p).text ++ List.replicate k '/') :
    p.segments = (withoutEndSlashes p).segments ++ List.replicate k [] := by
  rw [Path.segments, h]
  exact segments_slashes _ k

theorem start_withoutEndSlashes (tree : FileTree) (p : Path) :
    tree.start (withoutEndSlashes p) = tree.start p := by
  rw [start, start, isAbsolute_withoutEndSlashes]

/-- A walk along empty segments stays where it is, which has to be a directory. -/
theorem walk_emptySegments_eq_ok_iff {origin : Location} {k : Nat} :
    tree.walk origin (List.replicate k []) = .ok location ↔
      origin = location ∧ (k ≠ 0 → tree.node? origin = some .directory) := by
  induction k with
  | zero => exact ⟨fun h => ⟨Except.ok.inj h, absurd rfl⟩, fun h => congrArg Except.ok h.1⟩
  | succ k ih =>
    rw [List.replicate_succ, walk_cons_eq_ok_iff]
    constructor
    · rintro ⟨hdirectory, _, _, hrest⟩
      exact ⟨(ih.mp hrest).1, fun _ => hdirectory⟩
    · rintro ⟨hsame, hdirectory⟩
      have hnode := hdirectory (Nat.succ_ne_zero k)
      exact ⟨hnode, absurd rfl, Nat.zero_le _, ih.mpr ⟨hsame, fun _ => hnode⟩⟩

/-- A path of a directory leads there with slashes at its end too. -/
theorem locate_of_withoutEndSlashes (hcheck : check p = .ok ())
    (hlocate : tree.locate (withoutEndSlashes p) = .ok location)
    (hnode : tree.node? location = some .directory) : tree.locate p = .ok location := by
  obtain ⟨_, hwalk⟩ := locate_eq_ok_iff.mp hlocate
  obtain ⟨k, hk⟩ := exists_withoutEndSlashes p
  rw [start_withoutEndSlashes] at hwalk
  refine locate_eq_ok_iff.mpr ⟨hcheck, ?_⟩
  rw [segments_withoutEndSlashes hk]
  exact walk_append_eq_ok_iff.mpr
    ⟨location, hwalk, walk_emptySegments_eq_ok_iff.mpr ⟨rfl, fun _ => hnode⟩⟩

/-- A path leads to the same place without the slashes at its end. -/
theorem locate_withoutEndSlashes (hlocate : tree.locate p = .ok location) :
    tree.locate (withoutEndSlashes p) = .ok location := by
  obtain ⟨hcheck, hwalk⟩ := locate_eq_ok_iff.mp hlocate
  obtain ⟨hzero, hne, hsize⟩ := check_eq_ok_iff.mp hcheck
  obtain ⟨k, hk⟩ := exists_withoutEndSlashes p
  have hnil : (withoutEndSlashes p).text ≠ [] := by
    obtain ⟨text⟩ := p
    cases text with
    | nil => exact absurd rfl hne
    | cons c rest => exact List.cons_ne_nil _ _
  rw [hk] at hzero hsize
  rw [utf8Size_append] at hsize
  rw [segments_withoutEndSlashes hk] at hwalk
  obtain ⟨middle, hmiddle, hrest⟩ := walk_append_eq_ok_iff.mp hwalk
  obtain ⟨rfl, _⟩ := walk_emptySegments_eq_ok_iff.mp hrest
  refine locate_eq_ok_iff.mpr ⟨check_eq_ok_iff.mpr ⟨fun hmem => hzero (List.mem_append_left _ hmem),
    hnil, Nat.le_of_add_right_le hsize⟩, ?_⟩
  rw [start_withoutEndSlashes, hmiddle]

/-! ## One directory -/

/-- A directory that is made is where nothing was, and its path leads there. -/
theorem exists_of_makeDirectory (h : tree.makeDirectory p = .ok after) :
    ∃ location, tree.node? location = none ∧ after = tree.set location .directory ∧
      after.node? location = some .directory ∧ after.locate p = .ok location := by
  obtain ⟨_, hcheck, h⟩ := bind_eq_ok_iff.mp h
  obtain ⟨location, hlocate, h⟩ := bind_eq_ok_iff.mp h
  split at h
  next => cases h
  next hnone =>
    obtain ⟨_, rfl⟩ := tryPut_eq_ok_iff.mp h
    have hnode : (tree.set location .directory).node? location = some .directory := by
      rw [node?_set (ne_nil_of_node?_eq_none hnone), if_pos rfl]
    have hthere := (grown_set hnone).keepsDirectories.locate hlocate
    exact ⟨location, hnone, rfl, hnode, locate_of_withoutEndSlashes hcheck hthere hnode⟩

theorem grownAlong_makeDirectory (h : tree.makeDirectory p = .ok after) :
    GrownAlong [p] tree after := by
  obtain ⟨location, hnone, rfl, _, hlocate⟩ := exists_of_makeDirectory h
  refine ⟨grown_set hnone, fun other hbefore hafter => ⟨p, List.mem_cons_self, ?_⟩⟩
  have hother : other = location := by
    by_contra hother
    rw [node?_set (ne_nil_of_node?_eq_none hnone), if_neg hother] at hafter
    exact hafter hbefore
  rwa [hother]

theorem isDirectory_makeDirectory (h : tree.makeDirectory p = .ok after) :
    after.isDirectory p = true := by
  obtain ⟨location, _, _, hnode, hlocate⟩ := exists_of_makeDirectory h
  exact isDirectory_iff.mpr ⟨location, hlocate, hnode⟩

theorem grownAlong_ensureDirectory (tree : FileTree) (p : Path) :
    GrownAlong [p] tree (tree.ensureDirectory p).tree := by
  rw [ensureDirectory]
  split
  next h => exact grownAlong_makeDirectory h
  next =>
    split
    · exact .refl _ tree
    · exact .refl _ tree

theorem isDirectory_ensureDirectory (h : (tree.ensureDirectory p).error? = none) :
    (tree.ensureDirectory p).tree.isDirectory p = true := by
  rw [ensureDirectory] at h ⊢
  split at h
  next hmade => exact isDirectory_makeDirectory hmade
  next =>
    split at h
    next hdirectory => rwa [if_pos hdirectory]
    next => cases h

/-! ## With the directories above -/

theorem grownAlong_createBelow (tree : FileTree) (p : Path) (above : List Path) :
    GrownAlong (p :: above) tree (tree.createBelow p above).tree := by
  induction above generalizing p with
  | nil => exact grownAlong_ensureDirectory tree p
  | cons parent above ih =>
    have habove := (ih parent).of_subset (List.subset_cons_self p (parent :: above))
    have hself : ∀ before : FileTree,
        GrownAlong (p :: parent :: above) before (before.ensureDirectory p).tree := fun before =>
      (grownAlong_ensureDirectory before p).of_subset (by simp)
    rw [createBelow]
    split
    · show GrownAlong _ tree (if _ then _ else _ : Attempt).tree
      split
      · exact habove
      · exact habove.trans (hself _)
    · exact hself tree

theorem isDirectory_createBelow {above : List Path}
    (h : (tree.createBelow p above).error? = none) :
    (tree.createBelow p above).tree.isDirectory p = true := by
  cases above with
  | nil => exact isDirectory_ensureDirectory h
  | cons parent above =>
    rw [createBelow] at h ⊢
    split at h
    · dsimp only at h ⊢
      split at h
      next hfailed =>
        rw [h] at hfailed
        cases hfailed
      next hmade =>
        rw [if_neg hmade]
        exact isDirectory_ensureDirectory h
    · exact isDirectory_ensureDirectory h

/-- Only the directory and those above it are made. -/
theorem grownAlong_createDirectories (tree : FileTree) (p : Path) :
    GrownAlong (p :: p.ancestors) tree (tree.createDirectories p).tree := by
  rw [createDirectories]
  split
  · exact .refl _ tree
  · exact grownAlong_createBelow tree p p.ancestors

theorem grown_createDirectories (tree : FileTree) (p : Path) :
    Grown tree (tree.createDirectories p).tree :=
  (grownAlong_createDirectories tree p).grown

/-- A directory that could be made is there. -/
theorem isDirectory_createDirectories (hp : p.text ≠ [])
    (h : (tree.createDirectories p).error? = none) :
    (tree.createDirectories p).tree.isDirectory p = true := by
  rw [createDirectories, if_neg hp] at h ⊢
  exact isDirectory_createBelow h

/-- A directory that is there is not made again. -/
theorem createDirectories_of_isDirectory (h : tree.isDirectory p = true) :
    tree.createDirectories p = ⟨tree, none⟩ := by
  obtain ⟨location, hlocate, hnode⟩ := isDirectory_iff.mp h
  have hcheck := (locate_eq_ok_iff.mp hlocate).1
  have hmake : tree.makeDirectory p = .error .alreadyExists := by
    rw [makeDirectory, hcheck, locate_withoutEndSlashes hlocate]
    simp [bind, Except.bind, hnode]
  have hensure : tree.ensureDirectory p = ⟨tree, none⟩ := by
    rw [ensureDirectory, hmake]
    dsimp only
    rw [if_pos h]
  rw [createDirectories, if_neg (check_eq_ok_iff.mp hcheck).2.1]
  cases p.ancestors with
  | nil => exact hensure
  | cons parent above =>
    rw [createBelow, hmake]
    exact hensure

end ShellDoc.FileTree
