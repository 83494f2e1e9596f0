import ShellDoc.Proofs.FileTree.Repeat
import ShellDoc.Proofs.Path.Order
import ShellDoc.Proofs.Source.Filled

/-!
# Trees that are alike in their sources

Two trees are alike if they have files and directories at the same locations with the same rights,
and the same bytes in all sources. What the other files hold shows in nothing but in the bytes read
from them: paths lead to the same locations or fail for the same reason (`AlikeInSources.locate`),
directories list the same names in the same order (`AlikeInSources.namesUnder`), and sources read the
same (`AlikeInSources.readFunctions`).

So whatever is set in one tree can be set in the other, and they are alike again
(`AlikeInSources.setAll`). Making a directory and writing a file do set the same in both.
-/

namespace ShellDoc

open FileTree

namespace FileTree

variable {tree : FileTree} {location : Location}

/-! ## The order of listings -/

theorem not_before_of_namesAscend {names names' : List Text} (h : namesAscend names names' = true) :
    ¬ listBefore Text.before names' names = true := by
  rw [namesAscend, Bool.not_eq_true'] at h
  rw [h]
  exact Bool.false_ne_true

theorem namesAscend_antisymm {names names' : List Text} (h : namesAscend names names' = true)
    (h' : namesAscend names' names = true) : names = names' :=
  Std.Trichotomous.trichotomous (r := fun as bs => listBefore Text.before as bs = true) names names'
    (not_before_of_namesAscend h') (not_before_of_namesAscend h)

theorem namesAscend_trans {names names' names'' : List Text} (h : namesAscend names names' = true)
    (h' : namesAscend names' names'' = true) : namesAscend names names'' = true := by
  rw [namesAscend, Bool.not_eq_true', Bool.eq_false_iff]
  intro hbefore
  by_cases hfirst : listBefore Text.before names names' = true
  · exact not_before_of_namesAscend h'
      (trans_of (fun as bs => listBefore Text.before as bs = true) hbefore hfirst)
  · have hsame : names = names' := Std.Trichotomous.trichotomous
      (r := fun as bs => listBefore Text.before as bs = true) names names' hfirst
      (not_before_of_namesAscend h)
    rw [hsame] at hbefore
    exact not_before_of_namesAscend h' hbefore

theorem namesAscend_total (names names' : List Text) :
    (namesAscend names names' || namesAscend names' names) = true := by
  rw [namesAscend, namesAscend, ← Bool.not_and, Bool.not_eq_true', Bool.and_eq_false_iff]
  by_cases hbehind : listBefore Text.before names' names = true
  · exact .inr (Bool.eq_false_iff.mpr
      (asymm_of (fun as bs => listBefore Text.before as bs = true) hbehind))
  · exact .inl (Bool.eq_false_iff.mpr hbehind)

/-- What listings find below a location depends on the rights and on which locations there are, not on
their order. -/
theorem descendants_eq_of_perm {other : FileTree} (hdenials : other.denials = tree.denials)
    (h : other.locations.Perm tree.locations) (location : Location) :
    other.descendants location = tree.descendants location := by
  have hbelow : ∀ tree : FileTree, tree.descendants location =
      ((tree.locations.filterMap (namesBelow? location)).filter
        (tree.lists location)).mergeSort namesAscend := by
    intro tree
    rw [descendants, locations, List.filterMap_map]
    rfl
  have hsorted : ∀ names, List.Pairwise (fun first second => namesAscend first second = true)
      (List.mergeSort names namesAscend) :=
    List.pairwise_mergeSort (fun _ _ _ => namesAscend_trans) namesAscend_total
  have hlists : other.lists location = tree.lists location := funext (lists_congr hdenials location)
  rw [hbelow, hbelow, hlists]
  refine List.Perm.eq_of_pairwise (fun _ _ _ _ => namesAscend_antisymm) (hsorted _) (hsorted _) ?_
  exact (List.mergeSort_perm _ _).trans
    (((h.filterMap (namesBelow? location)).filter _).trans (List.mergeSort_perm _ _).symm)

end FileTree

namespace Source

variable {tree tree' : FileTree} {p : Path} {location : Location}

/-! ## Alike trees -/

/-- Whether two trees have the same files, directories and rights, and differ at most in the bytes of
files that are no sources. -/
structure AlikeInSources (tree tree' : FileTree) : Prop where
  /-- Directories and sources are the same. -/
  sources : SameSources tree tree'
  /-- There is something at the same locations. -/
  locations : tree'.locations.Perm tree.locations

theorem AlikeInSources.symm (h : AlikeInSources tree tree') : AlikeInSources tree' tree :=
  ⟨⟨h.sources.workingDirectory.symm, h.sources.denials.symm,
    fun location => (h.sources.directory location).symm,
    fun parent name hname => (h.sources.source parent name hname).symm⟩, h.locations.symm⟩

theorem AlikeInSources.allows (h : AlikeInSources tree tree') (right : Right)
    (location : Location) : tree'.allows right location = tree.allows right location :=
  allows_congr h.sources.denials right location

theorem AlikeInSources.node?_eq_none_iff (h : AlikeInSources tree tree') (location : Location) :
    tree'.node? location = none ↔ tree.node? location = none := by
  rw [FileTree.node?_eq_none_iff, FileTree.node?_eq_none_iff, h.locations.mem_iff]

/-- A file is a file in both trees, perhaps with other bytes. -/
theorem AlikeInSources.exists_file (h : AlikeInSources tree tree') {content : ByteArray}
    (hnode : tree.node? location = some (.file content)) :
    ∃ content', tree'.node? location = some (.file content') := by
  cases hnode' : tree'.node? location with
  | none =>
    rw [(h.node?_eq_none_iff location).mp hnode'] at hnode
    cases hnode
  | some node =>
    cases node with
    | file content' => exact ⟨content', rfl⟩
    | directory =>
      rw [(h.sources.directory location).mp hnode'] at hnode
      cases hnode

/-- Trees are alike if one arose from the other by giving other bytes to a file that is no
source. -/
theorem alikeInSources_set {parent : Location} {name : Text} {content : ByteArray}
    (hnode : tree.node? (parent ++ [name]) = some (.file content))
    (hname : isSourceName name = false) (content' : ByteArray) :
    AlikeInSources tree (tree.set (parent ++ [name]) (.file content')) := by
  refine ⟨(SameSources.refl tree).set hname (by simp [hnode]) content', ?_⟩
  have hlisted := mem_locations_of_node? (by simp : parent ++ [name] ≠ []) hnode
  rw [locations_set, if_pos hlisted]

/-! ## Paths -/

theorem AlikeInSources.walk (h : AlikeInSources tree tree') (location : Location)
    (segments : List Text) : tree'.walk location segments = tree.walk location segments := by
  induction segments generalizing location with
  | nil => rfl
  | cons segment rest ih =>
    rw [FileTree.walk, FileTree.walk]
    cases hnode : tree.node? location with
    | none => rw [(h.node?_eq_none_iff location).mpr hnode]
    | some node =>
      cases node with
      | file content =>
        obtain ⟨content', hnode'⟩ := h.exists_file hnode
        rw [hnode']
      | directory =>
        rw [(h.sources.directory location).mpr hnode]
        dsimp only
        rw [h.allows, ih]

/-- A path leads to the same location in both trees, or fails for the same reason. -/
theorem AlikeInSources.locate (h : AlikeInSources tree tree') (p : Path) :
    tree'.locate p = tree.locate p := by
  rw [FileTree.locate, FileTree.locate, h.sources.workingDirectory]
  simp only [h.walk]

theorem AlikeInSources.isFile (h : AlikeInSources tree tree') (p : Path) :
    tree'.isFile p = tree.isFile p := by
  rw [Bool.eq_iff_iff, isFile_iff, isFile_iff]
  constructor
  · rintro ⟨location, content, hlocate, hnode⟩
    obtain ⟨content', hnode'⟩ := h.symm.exists_file hnode
    exact ⟨location, content', (h.locate p) ▸ hlocate, hnode'⟩
  · rintro ⟨location, content, hlocate, hnode⟩
    obtain ⟨content', hnode'⟩ := h.exists_file hnode
    exact ⟨location, content', (h.locate p).trans hlocate, hnode'⟩

theorem AlikeInSources.isPresent (h : AlikeInSources tree tree') (p : Path) :
    tree'.isPresent p = tree.isPresent p := by
  rw [FileTree.isPresent, FileTree.isPresent, h.isFile, h.sources.isDirectory]

/-! ## Listings -/

/-- Directories list the same names in the same order. -/
theorem AlikeInSources.namesUnder (h : AlikeInSources tree tree') (p : Path) :
    tree'.namesUnder p = tree.namesUnder p := by
  rw [FileTree.namesUnder, FileTree.namesUnder, h.sources.isDirectory, h.locate]
  simp only [descendants_eq_of_perm h.sources.denials h.locations]

theorem AlikeInSources.entryNames (h : AlikeInSources tree tree') (p : Path) :
    tree'.entryNames p = tree.entryNames p := by
  rw [FileTree.entryNames, FileTree.entryNames, h.namesUnder]

/-! ## Reading -/

/-- The path of a source leads to the same in both trees, if it may be read. -/
theorem AlikeInSources.openToRead (h : AlikeInSources tree tree')
    (hsource : isShellSource p = true) : tree'.openToRead p = tree.openToRead p := by
  rw [FileTree.openToRead, FileTree.openToRead, h.locate]
  cases hlocate : tree.locate p with
  | error cause => rfl
  | ok location =>
    have hnode : tree'.node? location = tree.node? location := by
      cases hnode : tree.node? location with
      | none => exact (h.node?_eq_none_iff location).mpr hnode
      | some node =>
        cases node with
        | directory => exact (h.sources.directory location).mpr hnode
        | file content =>
          obtain ⟨name, hname, hsource⟩ := exists_of_isShellSource hsource
          obtain ⟨parent, rfl⟩ := exists_parent_of_fileName? hlocate hnode hname
          rw [h.sources.source parent name hsource, hnode]
    simp only [bind, Except.bind, hnode, h.allows]

/-- **Sources read the same in both trees**, and other files are not read. -/
theorem AlikeInSources.readFunctions (h : AlikeInSources tree tree') (marker : Char) (p : Path) :
    readFunctions tree' marker p = readFunctions tree marker p := by
  rw [Source.readFunctions, Source.readFunctions]
  split
  next hsource =>
    rw [FileTree.readText, FileTree.readText, FileTree.read, FileTree.read, h.openToRead hsource]
  next => rfl

/-! ## Changes -/

theorem AlikeInSources.set (h : AlikeInSources tree tree') (location : Location) (node : Node) :
    AlikeInSources (tree.set location node) (tree'.set location node) := by
  refine ⟨⟨h.sources.workingDirectory, h.sources.denials, fun other => ?_,
    fun parent name hname => ?_⟩, ?_⟩
  · rw [node?_set_eq, node?_set_eq]
    split
    next => exact .rfl
    next => exact h.sources.directory other
  · rw [node?_set_eq, node?_set_eq, h.sources.source parent name hname]
  · rw [locations_set, locations_set]
    simp only [h.locations.mem_iff]
    split
    next => exact h.locations
    next => exact h.locations.append_right [location]

/-- What is set in both trees leaves them alike. -/
theorem AlikeInSources.setAll (h : AlikeInSources tree tree') (nodes : List (Location × Node)) :
    AlikeInSources (tree.setAll nodes) (tree'.setAll nodes) := by
  induction nodes generalizing tree tree' with
  | nil => exact h
  | cons first rest ih =>
    obtain ⟨location, node⟩ := first
    exact ih (h.set location node)

/-- What may be put in one tree may be put in the other. -/
theorem AlikeInSources.exists_tryPut_eq (h : AlikeInSources tree tree') (location : Location)
    (node : Node) :
    ∃ nodes : Except FileError (List (Location × Node)),
      tree.tryPut location node = nodes.map tree.setAll ∧
        tree'.tryPut location node = nodes.map tree'.setAll := by
  rw [tryPut, tryPut, mayPut_congr h.sources.denials (h.node?_eq_none_iff location)]
  split
  next => exact ⟨.ok [(location, node)], rfl, rfl⟩
  next => exact ⟨.error .permissionDenied, rfl, rfl⟩

theorem AlikeInSources.exists_makeDirectory_eq (h : AlikeInSources tree tree') (p : Path) :
    ∃ nodes : Except FileError (List (Location × Node)),
      tree.makeDirectory p = nodes.map tree.setAll ∧
        tree'.makeDirectory p = nodes.map tree'.setAll := by
  rw [makeDirectory, makeDirectory, h.locate]
  cases check p with
  | error cause => exact ⟨.error cause, rfl, rfl⟩
  | ok =>
    cases tree.locate (withoutEndSlashes p) with
    | error cause => exact ⟨.error cause, rfl, rfl⟩
    | ok location =>
      cases hnode : tree.node? location with
      | none =>
        obtain ⟨nodes, hput, hput'⟩ := h.exists_tryPut_eq location .directory
        refine ⟨nodes, ?_, ?_⟩
        · simp only [bind, Except.bind, hnode]
          exact hput
        · simp only [bind, Except.bind, (h.node?_eq_none_iff location).mpr hnode]
          exact hput'
      | some node =>
        have hthere : tree'.node? location ≠ none := by
          rw [Ne, h.node?_eq_none_iff, hnode]
          exact Option.some_ne_none node
        obtain ⟨node', hnode'⟩ := Option.ne_none_iff_exists'.mp hthere
        refine ⟨.error .alreadyExists, ?_, ?_⟩
        · simp only [bind, Except.bind, hnode]
          rfl
        · simp only [bind, Except.bind, hnode']
          rfl

theorem AlikeInSources.exists_ensureDirectory_eq (h : AlikeInSources tree tree') (p : Path) :
    ∃ nodes error?, tree.ensureDirectory p = ⟨tree.setAll nodes, error?⟩ ∧
      tree'.ensureDirectory p = ⟨tree'.setAll nodes, error?⟩ := by
  obtain ⟨nodes, hmake, hmake'⟩ := h.exists_makeDirectory_eq p
  rw [ensureDirectory, ensureDirectory, hmake, hmake', h.sources.isDirectory]
  cases nodes with
  | ok nodes => exact ⟨nodes, none, rfl, rfl⟩
  | error cause =>
    cases hdirectory : tree.isDirectory p with
    | true => exact ⟨[], none, rfl, rfl⟩
    | false => exact ⟨[], some cause, rfl, rfl⟩

theorem AlikeInSources.exists_createBelow_eq (h : AlikeInSources tree tree') (p : Path)
    (above : List Path) :
    ∃ nodes error?, tree.createBelow p above = ⟨tree.setAll nodes, error?⟩ ∧
      tree'.createBelow p above = ⟨tree'.setAll nodes, error?⟩ := by
  induction above generalizing p with
  | nil => exact h.exists_ensureDirectory_eq p
  | cons parent above ih =>
    obtain ⟨made, hmake, hmake'⟩ := h.exists_makeDirectory_eq p
    rw [createBelow, createBelow, hmake, hmake']
    cases made with
    | ok nodes => exact h.exists_ensureDirectory_eq p
    | error cause =>
      cases cause with
      | notFound =>
        obtain ⟨nodes, error?, hparent, hparent'⟩ := ih parent
        rw [hparent, hparent']
        cases error? with
        | some cause => exact ⟨nodes, some cause, rfl, rfl⟩
        | none =>
          obtain ⟨more, error?, hself, hself'⟩ := (h.setAll nodes).exists_ensureDirectory_eq p
          refine ⟨nodes ++ more, error?, ?_, ?_⟩
          · rw [setAll_append]
            exact hself
          · rw [setAll_append]
            exact hself'
      | _ => exact h.exists_ensureDirectory_eq p

/-- Making a directory with what is above it does the same in both trees. -/
theorem AlikeInSources.exists_createDirectories_eq (h : AlikeInSources tree tree') (p : Path) :
    ∃ nodes error?, tree.createDirectories p = ⟨tree.setAll nodes, error?⟩ ∧
      tree'.createDirectories p = ⟨tree'.setAll nodes, error?⟩ := by
  rw [createDirectories, createDirectories]
  split
  next => exact ⟨[], none, rfl, rfl⟩
  next => exact h.exists_createBelow_eq p _

/-- Writing a file does the same in both trees. -/
theorem AlikeInSources.exists_write_eq (h : AlikeInSources tree tree') (p : Path)
    (content : ByteArray) :
    ∃ nodes : Except FileError (List (Location × Node)),
      tree.write p content = nodes.map tree.setAll ∧
        tree'.write p content = nodes.map tree'.setAll := by
  cases hlocate : tree.locate p with
  | error cause =>
    refine ⟨.error cause, ?_, ?_⟩
    · rw [write, hlocate]
      rfl
    · rw [write, h.locate, hlocate]
      rfl
  | ok location =>
    have hlocate' := (h.locate p).trans hlocate
    by_cases hdirectory : tree.node? location = some .directory
    · have hdirectory' := (h.sources.directory location).mpr hdirectory
      refine ⟨.error .isDirectory, ?_, ?_⟩
      · rw [write, hlocate]
        simp only [bind, Except.bind, hdirectory]
        rfl
      · rw [write, hlocate']
        simp only [bind, Except.bind, hdirectory']
        rfl
    · have hdirectory' : tree'.node? location ≠ some .directory := fun hnode' =>
        hdirectory ((h.sources.directory location).mp hnode')
      obtain ⟨nodes, hput, hput'⟩ := h.exists_tryPut_eq location (.file content)
      refine ⟨nodes, ?_, ?_⟩
      · rw [FileTree.write_eq_tryPut hlocate hdirectory, hput]
      · rw [FileTree.write_eq_tryPut hlocate' hdirectory', hput']

end Source

end ShellDoc
