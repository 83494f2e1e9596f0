import ShellDoc.Proofs.FileTree.Create
import ShellDoc.Proofs.FileTree.Listing

/-!
# Files in directories

A regular file is right in a directory if its name leads there from the directory's location
(`IsFileIn`). The path of the directory with the name behind it leads to the file if the directory
is open, but not if the path is beyond the limit (`IsFileIn.isFile_join`,
`isFileIn_of_isFile_join`). Directories that are made add no files (`Grown.isFileIn_iff`), and have
proper names if the other entries do (`GrownAlong.isLocation`).
-/

namespace ShellDoc

namespace FileTree

variable {tree made : FileTree} {p : Path} {name : Text} {paths : List Path}

/-! ## Files in a directory -/

/-- Whether a text may be the name of an entry in a file system. (A file system may have names that
are no texts, but a file tree has not.) -/
structure IsName (name : Text) : Prop extends IsEntryName name where
  noZero : '\x00' ∉ name
  size : utf8Size name ≤ 255

instance (name : Text) : Decidable (IsEntryName name) :=
  decidable_of_iff ('/' ∉ name ∧ name ≠ [] ∧ name ≠ ['.'] ∧ name ≠ ['.', '.'])
    ⟨fun ⟨h₁, h₂, h₃, h₄⟩ => ⟨h₁, h₂, h₃, h₄⟩, fun ⟨h₁, h₂, h₃, h₄⟩ => ⟨h₁, h₂, h₃, h₄⟩⟩

instance (name : Text) : Decidable (IsName name) :=
  decidable_of_iff (IsEntryName name ∧ '\x00' ∉ name ∧ utf8Size name ≤ 255)
    ⟨fun ⟨h₁, h₂, h₃⟩ => ⟨h₁, h₂, h₃⟩, fun ⟨h₁, h₂, h₃⟩ => ⟨h₁, h₂, h₃⟩⟩

/-- Whether the entries of a tree, and those that lead to its working directory, have names that
entries may have. -/
structure IsNamed (tree : FileTree) : Prop where
  workingDirectory : IsLocation tree.workingDirectory
  locations : ∀ location ∈ tree.locations, ∀ name ∈ location, IsName name

/-- Whether a regular file with a name is right in a directory. -/
def IsFileIn (tree : FileTree) (directory : Path) (name : Text) : Prop :=
  ∃ location content, tree.locate directory = .ok location ∧
    tree.node? (location ++ [name]) = some (.file content)

theorem IsFileIn.exists_mem_locations (h : IsFileIn tree p name) :
    ∃ location, tree.locate p = .ok location ∧ location ++ [name] ∈ tree.locations := by
  obtain ⟨location, content, hlocate, hnode⟩ := h
  exact ⟨location, hlocate, mem_locations_of_node? (by simp) hnode⟩

theorem IsFileIn.mem_locations (h : IsFileIn tree p name) {location : Location}
    (hlocate : tree.locate p = .ok location) : location ++ [name] ∈ tree.locations := by
  obtain ⟨other, hother, hmem⟩ := h.exists_mem_locations
  obtain rfl : location = other := Except.ok.inj (hlocate.symm.trans hother)
  exact hmem

theorem IsFileIn.isName (h : IsFileIn tree p name) (hnamed : IsNamed tree) : IsName name := by
  obtain ⟨location, _, hmem⟩ := h.exists_mem_locations
  exact hnamed.locations _ hmem name (List.mem_append_right location List.mem_cons_self)

/-- A directory that may be listed lists the files in it. -/
theorem IsFileIn.mem_entryNames (h : IsFileIn tree p name)
    (hlistable : tree.isListable p = true) : name ∈ tree.entryNames p := by
  obtain ⟨location, hlocate, hnode, hread⟩ := isListable_iff.mp hlistable
  have hlists : tree.lists location [name] = true := by rw [lists, hread]; rfl
  exact mem_entryNames_iff.mpr
    (mem_namesUnder_iff.mpr
      ⟨location, hlocate, hnode, List.cons_ne_nil _ _, h.mem_locations hlocate, hlists⟩)

/-- A path of an entry that leads to a regular file leads to one in the directory. -/
theorem isFileIn_of_isFile_join (hdirectory : tree.isDirectory p = true) (hname : IsEntryName name)
    (hfile : tree.isFile (p.join name) = true) :
    IsFileIn tree p name ∧ utf8Size (p.join name).text ≤ 4095 := by
  obtain ⟨location, hlocate, hnode⟩ := isDirectory_iff.mp hdirectory
  obtain ⟨other, content, hother, hcontent⟩ := isFile_iff.mp hfile
  obtain ⟨hcheck, _, _, rfl⟩ := (locate_join_eq_ok_iff hlocate hnode hname).mp hother
  exact ⟨⟨location, content, hlocate, hcontent⟩, (check_eq_ok_iff.mp hcheck).2.2⟩

/-- Whether a path leads to a directory that may be listed and entered. -/
structure IsOpenDirectory (tree : FileTree) (p : Path) : Prop where
  listable : tree.isListable p = true
  enter : ∀ location, tree.locate p = .ok location → tree.allows .enter location = true

theorem IsOpenDirectory.isDirectory (h : IsOpenDirectory tree p) : tree.isDirectory p = true :=
  isDirectory_of_isListable h.listable

/-- The path of a file in an open directory leads there, if it stays within the limit. -/
theorem IsFileIn.isFile_join (h : IsFileIn tree p name) (hopen : IsOpenDirectory tree p)
    (hname : IsName name) (hsize : utf8Size (p.join name).text ≤ 4095) :
    tree.isFile (p.join name) = true := by
  obtain ⟨location, content, hlocate, hcontent⟩ := h
  have hnode := node?_of_isDirectory hlocate hopen.isDirectory
  obtain ⟨hzero, hne, _⟩ := check_eq_ok_iff.mp (locate_eq_ok_iff.mp hlocate).1
  have hcheck : check (p.join name) = .ok () := by
    refine check_eq_ok_iff.mpr ⟨fun hmem => ?_, Path.text_join_ne_nil hne, hsize⟩
    rcases Path.mem_text_join hmem with hmem | hslash | hmem
    · exact hzero hmem
    · exact absurd hslash (by decide)
    · exact hname.noZero hmem
  exact isFile_iff.mpr
    ⟨_, content, locate_join hlocate hnode (hopen.enter location hlocate) hname.toIsEntryName
      hname.size hcheck, hcontent⟩

/-- Beyond the limit a path leads nowhere. -/
theorem isPresent_eq_false_of_size {t : Text} (h : 4095 < utf8Size t) :
    tree.isPresent ⟨t⟩ = false := by
  have hnowhere : ∀ location, tree.locate ⟨t⟩ ≠ .ok location := fun location hlocate =>
    absurd (check_eq_ok_iff.mp (locate_eq_ok_iff.mp hlocate).1).2.2 (Nat.not_le_of_gt h)
  rw [isPresent, Bool.or_eq_false_iff]
  constructor
  · refine Bool.eq_false_iff.mpr fun hfile => ?_
    obtain ⟨location, _, hlocate, _⟩ := isFile_iff.mp hfile
    exact hnowhere location hlocate
  · refine Bool.eq_false_iff.mpr fun hdirectory => ?_
    obtain ⟨location, hlocate, _⟩ := isDirectory_iff.mp hdirectory
    exact hnowhere location hlocate

/-! ## With new directories -/

/-- Directories that are made add no files to a directory. -/
theorem Grown.isFileIn_iff (h : Grown tree made) (hdirectory : tree.isDirectory p = true) :
    IsFileIn made p name ↔ IsFileIn tree p name := by
  obtain ⟨location, hlocate, _⟩ := isDirectory_iff.mp hdirectory
  have hlocate' := h.keepsDirectories.locate hlocate
  constructor
  · rintro ⟨other, content, hother, hnode⟩
    obtain rfl : location = other := Except.ok.inj (hlocate'.symm.trans hother)
    exact ⟨location, content, hlocate, (h.file_iff _ content).mp hnode⟩
  · rintro ⟨other, content, hother, hnode⟩
    obtain rfl : location = other := Except.ok.inj (hlocate.symm.trans hother)
    exact ⟨location, content, hlocate', (h.file_iff _ content).mpr hnode⟩

/-- Directories that are made leave a directory as open as it was. -/
theorem Grown.isOpenDirectory (h : Grown tree made) (hopen : IsOpenDirectory tree p) :
    IsOpenDirectory made p := by
  obtain ⟨location, hlocate, hnode, hread⟩ := isListable_iff.mp hopen.listable
  have hlocate' := h.keepsDirectories.locate hlocate
  refine ⟨isListable_iff.mpr ⟨location, hlocate', h.keepsDirectories.directory _ hnode, ?_⟩, ?_⟩
  · rwa [allows_congr h.denials]
  · intro other hother
    obtain rfl : location = other := Except.ok.inj (hlocate'.symm.trans hother)
    rw [allows_congr h.denials]
    exact hopen.enter location hlocate

/-- Directories that are made have names that entries may have. -/
theorem GrownAlong.isLocation (h : GrownAlong paths tree made) (hnamed : IsNamed tree)
    {location : Location} (hmem : location ∈ made.locations) : IsLocation location := by
  cases hbefore : tree.node? location with
  | some node =>
    intro name hname
    have hlisted := mem_locations_of_node? (List.ne_nil_of_mem hname) hbefore
    exact (hnamed.locations location hlisted name hname).toIsEntryName
  | none =>
    have hafter : made.node? location ≠ none := fun hnone =>
      (node?_eq_none_iff.mp hnone).2 hmem
    obtain ⟨q, _, hlocate⟩ := h.exists_path location hbefore hafter
    have hworking : IsLocation made.workingDirectory := by
      rw [h.grown.workingDirectory]
      exact hnamed.workingDirectory
    exact isLocation_of_locate hworking hlocate

end FileTree

end ShellDoc
