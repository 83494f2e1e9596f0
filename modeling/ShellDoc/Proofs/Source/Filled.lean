import ShellDoc.Proofs.FileTree.Listing
import ShellDoc.Proofs.Source.Documented

/-!
# Trees with outputs

A tree in which outputs have been written has the same directories as before, and the same sources.
All that was listed is still listed, and what is new are files with the names of outputs
(`Filled.mem_namesUnder`). They are no sources, and no path leads through them.
-/

namespace ShellDoc

open FileTree

namespace Source

variable {before after : FileTree} {p : Path} {location root : Location} {format : Format}

/-! ## Paths in trees with the same sources -/

theorem SameSources.locate_iff (h : SameSources before after) :
    after.locate p = .ok location ↔ before.locate p = .ok location := by
  have hback : KeepsDirectories after before :=
    ⟨h.workingDirectory.symm, h.denials.symm, fun place => (h.directory place).mp⟩
  exact ⟨hback.locate, h.keepsDirectories.locate⟩

theorem SameSources.isDirectory (h : SameSources before after) (p : Path) :
    after.isDirectory p = before.isDirectory p := by
  rw [Bool.eq_iff_iff, isDirectory_iff, isDirectory_iff]
  simp only [h.locate_iff, h.directory]

theorem SameSources.isListable (h : SameSources before after) (p : Path) :
    after.isListable p = before.isListable p := by
  rw [Bool.eq_iff_iff, isListable_iff, isListable_iff]
  simp only [h.locate_iff, h.directory, allows_congr h.denials]

/-- No other file has become a source. -/
theorem SameSources.isFile_of_isShellSource (h : SameSources before after)
    (hsource : isShellSource p = true) (hfile : after.isFile p = true) :
    before.isFile p = true := by
  obtain ⟨name, hname, hsource⟩ := exists_of_isShellSource hsource
  obtain ⟨location, content, hlocate, hnode⟩ := isFile_iff.mp hfile
  obtain ⟨parent, rfl⟩ := exists_parent_of_fileName? hlocate hnode hname
  rw [h.source parent name hsource] at hnode
  exact isFile_iff.mpr ⟨_, content, h.locate_iff.mp hlocate, hnode⟩

/-! ## What outputs add -/

/-- Whether a tree arose from another by writing outputs into the directory at a location. -/
structure Filled (format : Format) (root : Location) (before after : FileTree) : Prop where
  sources : SameSources before after
  /-- What was there is still there. -/
  listed : ∀ location ∈ before.locations, location ∈ after.locations
  /-- What is new are outputs. -/
  added : ∀ location ∈ after.locations, location ∉ before.locations →
    ∃ p, location = root ++ [outputFile format p]

variable {names : List Text}

theorem Filled.node?_ne_none (h : Filled format root before after)
    (hnode : before.node? location ≠ none) : after.node? location ≠ none := by
  rw [Ne, node?_eq_none_iff, not_and_not_right] at hnode ⊢
  exact fun hne => h.listed location (hnode hne)

theorem Filled.isFile (h : Filled format root before after) (hfile : before.isFile p = true) :
    after.isFile p = true := by
  obtain ⟨location, content, hlocate, hnode⟩ := isFile_iff.mp hfile
  have hlocate := h.sources.locate_iff.mpr hlocate
  cases hafter : after.node? location with
  | none => exact absurd hafter (h.node?_ne_none (by simp [hnode]))
  | some node =>
    cases node with
    | file content => exact isFile_iff.mpr ⟨location, content, hlocate, hafter⟩
    | directory =>
      rw [(h.sources.directory location).mp hafter] at hnode
      cases hnode

/-- The sources are the same files. -/
theorem Filled.isSourceFile_iff (h : Filled format root before after)
    (hsource : isShellSource p = true) : after.isFile p = true ↔ before.isFile p = true :=
  ⟨h.sources.isFile_of_isShellSource hsource, h.isFile⟩

theorem Filled.isPresent (h : Filled format root before after) (hp : before.isPresent p = true) :
    after.isPresent p = true := by
  rw [FileTree.isPresent, Bool.or_eq_true] at hp ⊢
  rw [h.sources.isDirectory]
  exact hp.imp_left h.isFile

/-- A new file is an output. -/
theorem Filled.exists_of_isFile (h : Filled format root before after)
    (hfile : after.isFile p = true) (habsent : before.isPresent p = false) :
    ∃ q, after.locate p = .ok (root ++ [outputFile format q]) := by
  obtain ⟨location, content, hlocate, hnode⟩ := isFile_iff.mp hfile
  have hnone : before.node? location = none := by
    rw [FileTree.isPresent, Bool.or_eq_false_iff] at habsent
    cases hbefore : before.node? location with
    | none => rfl
    | some node =>
      cases node with
      | file content =>
        rw [isFile_iff.mpr ⟨location, content, h.sources.locate_iff.mp hlocate, hbefore⟩] at habsent
        cases habsent.1
      | directory =>
        rw [isDirectory_iff.mpr ⟨location, h.sources.locate_iff.mp hlocate, hbefore⟩] at habsent
        cases habsent.2
  obtain ⟨hroot, hunlisted⟩ := node?_eq_none_iff.mp hnone
  have hlisted : location ∈ after.locations := by
    by_contra hunlisted
    rw [node?_eq_none_iff.mpr ⟨hroot, hunlisted⟩] at hnode
    cases hnode
  obtain ⟨q, rfl⟩ := h.added location hlisted hunlisted
  exact ⟨q, hlocate⟩

/-- Whether names lead from the directory at a path down to an output, which is no directory. -/
def LeadsToOutput (format : Format) (root : Location) (tree : FileTree) (p : Path)
    (names : List Text) : Prop :=
  ∃ location q, tree.locate p = .ok location ∧ location ++ names = root ++ [outputFile format q] ∧
    tree.node? (location ++ names) ≠ some .directory

/-- What a directory lists is what it listed before, and outputs. -/
theorem Filled.mem_namesUnder (h : Filled format root before after)
    (hnames : names ∈ after.namesUnder p) :
    names ∈ before.namesUnder p ∨ LeadsToOutput format root after p names := by
  obtain ⟨location, hlocate, hdirectory, hne, hlisted, hlists⟩ := mem_namesUnder_iff.mp hnames
  have hlocate' := h.sources.locate_iff.mp hlocate
  have hdirectory' := (h.sources.directory location).mp hdirectory
  rw [lists_congr h.sources.denials] at hlists
  by_cases hbefore : location ++ names ∈ before.locations
  · exact .inl (mem_namesUnder_iff.mpr ⟨location, hlocate', hdirectory', hne, hbefore, hlists⟩)
  · obtain ⟨q, hq⟩ := h.added _ hlisted hbefore
    refine .inr ⟨location, q, hlocate, hq, fun hnode => ?_⟩
    rw [h.sources.directory, node?_eq_none_iff.mpr
      ⟨List.append_ne_nil_of_right_ne_nil _ hne, hbefore⟩] at hnode
    cases hnode

theorem Filled.namesUnder_subset (h : Filled format root before after)
    (hnames : names ∈ before.namesUnder p) : names ∈ after.namesUnder p := by
  obtain ⟨location, hlocate, hdirectory, hne, hlisted, hlists⟩ := mem_namesUnder_iff.mp hnames
  rw [← lists_congr h.sources.denials] at hlists
  exact mem_namesUnder_iff.mpr ⟨location, h.sources.locate_iff.mpr hlocate,
    (h.sources.directory location).mpr hdirectory, hne, h.listed _ hlisted, hlists⟩

end Source

end ShellDoc
