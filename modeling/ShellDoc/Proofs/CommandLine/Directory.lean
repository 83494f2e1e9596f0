import ShellDoc.Proofs.CommandLine.Arrangement
import ShellDoc.Proofs.CommandLine.Files
import ShellDoc.Proofs.FileTree.Files
import ShellDoc.Proofs.Glob.Ending

/-!
# Directories as arguments

A directory that may be listed and entered stands for the regular files right in it: a run on the
directory comes to the same end as a run on the paths of these files (`run_directory`). What is no
source is left out from the start by the one, and found and passed over by the other.

The paths must be ones that lead somewhere. A directory can be spelled at such a length that with a
name behind it the path is beyond the limit. Then the file is not found in the directory, and its
path is read as a pattern, which may not even be one. And a directory that may not be listed ends the
run, although the files in it can be read (`run_directory_endsApart`).
-/

namespace ShellDoc.CommandLine

open Source FileTree

variable {tree made : FileTree} {marker : Char} {format : Format} {directory listed : Path}
  {paths : List Path} {files arguments arguments' : List Text} {options options' : Options}

/-! ## What is found -/

/-- A directory stands for the sources among the files that were in it before. -/
theorem mem_resolved_directory_iff (hnamed : IsNamed tree) (hgrown : GrownAlong paths tree made)
    (hlisted : IsOpenDirectory tree listed) {p : Path} :
    p ∈ resolved made listed.text ↔ isShellSource p = true ∧ ∃ name, IsFileIn tree listed name ∧
      utf8Size (listed.join name).text ≤ 4095 ∧ p = listed.join name := by
  have hmade := hgrown.grown.isOpenDirectory hlisted
  have hfiles : ∀ name, IsFileIn made listed name ↔ IsFileIn tree listed name := fun _ =>
    hgrown.grown.isFileIn_iff hlisted.isDirectory
  rw [resolved_of_isListable hmade.listable, List.mem_filter, Bool.and_eq_true, List.mem_map]
  constructor
  · rintro ⟨⟨name, hname, rfl⟩, hfile, hsource⟩
    obtain ⟨location, _, _, _, hmem, _⟩ := mem_namesUnder_iff.mp (mem_entryNames_iff.mp hname)
    have hname : IsEntryName name :=
      hgrown.isLocation hnamed hmem name (List.mem_append_right location List.mem_cons_self)
    obtain ⟨hin, hsize⟩ := isFileIn_of_isFile_join hmade.isDirectory hname hfile
    exact ⟨hsource, name, (hfiles name).mp hin, hsize, rfl⟩
  · rintro ⟨hsource, name, hin, hsize, rfl⟩
    have hmem := ((hfiles name).mpr hin).mem_entryNames hmade.listable
    have hfile := ((hfiles name).mpr hin).isFile_join hmade (hin.isName hnamed) hsize
    exact ⟨⟨name, hmem, rfl⟩, hfile, hsource⟩

/-- Whether texts are the paths of the regular files right in a directory, in any order and however
often each. Paths beyond the limit are none of them. -/
def AreFilesIn (tree : FileTree) (directory : Path) (files : List Text) : Prop :=
  ∀ file, file ∈ files ↔ ∃ name, IsFileIn tree directory name ∧
    utf8Size (directory.join name).text ≤ 4095 ∧ file = (directory.join name).text

theorem AreFilesIn.isFile (h : AreFilesIn tree listed files) (hnamed : IsNamed tree)
    (hgrown : GrownAlong paths tree made) (hlisted : IsOpenDirectory tree listed) :
    ∀ file ∈ files, made.isFile ⟨file⟩ = true := by
  intro file hmem
  obtain ⟨name, hin, hsize, rfl⟩ := (h file).mp hmem
  exact ((hgrown.grown.isFileIn_iff hlisted.isDirectory).mpr hin).isFile_join
    (hgrown.grown.isOpenDirectory hlisted) (hin.isName hnamed) hsize

/-- The sources among the files in a directory are what the directory stands for. -/
theorem AreFilesIn.mem_resolved_iff (h : AreFilesIn tree listed files) (hnamed : IsNamed tree)
    (hgrown : GrownAlong paths tree made) (hlisted : IsOpenDirectory tree listed) {p : Path} :
    p ∈ (files.flatMap (resolved made)).filter isShellSource ↔ p ∈ resolved made listed.text := by
  have hfile := h.isFile hnamed hgrown hlisted
  rw [mem_resolved_directory_iff hnamed hgrown hlisted, List.mem_filter, List.mem_flatMap, and_comm]
  refine and_congr_right fun _ => ?_
  constructor
  · rintro ⟨file, hmem, hp⟩
    rw [resolved_of_isFile (hfile file hmem), List.mem_singleton] at hp
    obtain ⟨name, hin, hsize, rfl⟩ := (h file).mp hmem
    exact ⟨name, hin, hsize, hp⟩
  · rintro ⟨name, hin, hsize, rfl⟩
    have hmem := (h _).mpr ⟨name, hin, hsize, rfl⟩
    refine ⟨_, hmem, ?_⟩
    rw [resolved_of_isFile (hfile _ hmem), List.mem_singleton]

/-- A directory and its files lead to the same sources in the same order, up to spelling. -/
theorem exists_expand_directory (hnamed : IsNamed tree) (hgrown : GrownAlong paths tree made)
    (hlisted : IsOpenDirectory tree listed) (hfiles : AreFilesIn tree listed files) :
    ∃ sources sources', (expand made [listed.text]).2 = .ok sources ∧
      (expand made files).2 = .ok sources' ∧
      sources.map Path.components = (sources'.filter isShellSource).map Path.components := by
  have hmade := (hgrown.grown.isOpenDirectory hlisted).listable
  have hexpand := expand_eq_ok_iff.mpr
    ⟨List.forall_mem_singleton.mpr (.inr (.inl hmade) : IsValidArgument made listed.text), rfl⟩
  have hexpand' := expand_eq_ok_iff.mpr
    ⟨fun file hmem => (.inl (hfiles.isFile hnamed hgrown hlisted file hmem) :
      IsValidArgument made file), rfl⟩
  refine ⟨_, _, hexpand, hexpand', Path.map_components_eq (ascending_of_expand hexpand)
    (Path.ascending_filter (ascending_of_expand hexpand') _) fun c => ?_⟩
  rw [Path.mem_components_filter_insertAll fun _ _ => isShellSource_eq_of_components_eq,
    Path.mem_components_insertAll, List.map_nil, or_iff_left List.not_mem_nil,
    List.flatMap_singleton]
  simp only [List.mem_map, hfiles.mem_resolved_iff hnamed hgrown hlisted]

/-! ## What is written -/

theorem sameEnd_writeAll_cons {rest rest' : List Path}
    (h : ∀ written tree, SameEnd (writeAll marker format directory written tree rest)
      (writeAll marker format directory written tree rest'))
    (p : Path) (written : List (Path × Path)) (tree : FileTree) :
    SameEnd (writeAll marker format directory written tree (p :: rest))
      (writeAll marker format directory written tree (p :: rest')) := by
  rw [writeAll, writeAll]
  cases readFunctions tree marker p with
  | error reason => exact ⟨(h written tree).result, (h written tree).tree⟩
  | ok functions =>
    cases functions with
    | nil => exact ⟨(h written tree).result, (h written tree).tree⟩
    | cons f fs =>
      dsimp only
      cases tree.write (outputPath directory format p) (encodeUtf8 (format.print (f :: fs))) with
      | error cause => exact ⟨rfl, rfl⟩
      | ok after => exact ⟨(h _ after).result, (h _ after).tree⟩

/-- What is no source may be left out from the start. -/
theorem sameEnd_writeAll_filter (marker : Char) (format : Format) (directory : Path)
    (written : List (Path × Path)) (tree : FileTree) (sources : List Path) :
    SameEnd (writeAll marker format directory written tree (sources.filter isShellSource))
      (writeAll marker format directory written tree sources) := by
  induction sources generalizing written tree with
  | nil => exact ⟨rfl, rfl⟩
  | cons p rest ih =>
    cases hsource : isShellSource p with
    | true =>
      rw [List.filter_cons_of_pos hsource]
      exact sameEnd_writeAll_cons ih p written tree
    | false =>
      have hp : isDocumented tree marker p = false := by
        rw [isDocumented, hsource, Bool.false_and]
      obtain ⟨e, _, hstep⟩ :=
        writeAll_cons_of_not_isDocumented hp format directory written rest
      obtain ⟨hresult, htree⟩ := ih written tree
      rw [List.filter_cons_of_neg (by rw [hsource]; decide), hstep]
      exact ⟨hresult, htree⟩

/-! ## Whole runs -/

/-- With the output directory there, a run on a directory comes to the same end as one on its
files. -/
theorem sameEnd_of_directory (hnamed : IsNamed tree) (hgrown : GrownAlong paths tree made)
    (hlisted : IsOpenDirectory tree listed) (hmarker : options'.marker = options.marker)
    (hoptions : options.files = [listed.text]) (hfiles : AreFilesIn tree listed options'.files) :
    SameEnd (runMade options directory format made) (runMade options' directory format made) := by
  obtain ⟨sources, sources', hexpand, hexpand', hcomponents⟩ :=
    exists_expand_directory hnamed hgrown hlisted hfiles
  rw [← hoptions] at hexpand
  refine sameEnd_runMade hmarker hexpand hexpand' (SameEnd.trans ?_
    (sameEnd_writeAll_filter options.marker format directory [] made sources'))
  exact sameEnd_writeAll hcomponents (fun _ => isFile_of_expand hexpand)
    (fun _ hp => isFile_of_expand hexpand' (List.mem_filter.mp hp).1) [] []

/-- **A directory as an argument means its files.** A run on a directory that may be listed and
entered ends with the same exit code and the same output as a run with the same options on the paths
of the regular files right in it, in any order, and leaves the same tree. It does not matter what
else is in the directory, nor whether the output directory is in it. Paths beyond the limit are left
out. The log settings are the same, or at least such that both runs get past them or neither does. -/
theorem run_directory (hnamed : IsNamed tree) (hlisted : IsOpenDirectory tree listed)
    (h : AsksForFiles arguments options) (h' : AsksForFiles arguments' options')
    (hoptions : { options' with files := options.files } = options)
    (hfile : options.files = [listed.text]) (hfiles : AreFilesIn tree listed options'.files)
    {setting? setting'? : Option Text}
    (hsettings : Starts options setting? ↔ Starts options setting'?) (input input' : ByteArray) :
    let outcome := run arguments setting? input tree
    let outcome' := run arguments' setting'? input' tree
    outcome.exitCode = outcome'.exitCode ∧ outcome.output = outcome'.output ∧
      outcome.tree = outcome'.tree := by
  have hmarker : options'.marker = options.marker := by rw [← hoptions]
  refine run_eq_of_sameEnd h h' hoptions hsettings fun directory format made _ hcreated => ?_
  have hgrown := grownAlong_createDirectories tree directory
  rw [hcreated] at hgrown
  exact sameEnd_of_directory hnamed hgrown hlisted hmarker hfile hfiles

/-- A directory with a script, a file that is no text, and a directory named like a script. -/
def mixedTree : FileTree where
  entries := [
    (["a".toList], .directory),
    (["a".toList, "notes".toList], .file ⟨#[0xff]⟩),
    (["a".toList, "x.sh".toList], .file (encodeUtf8 (shortScript 'f'))),
    (["a".toList, "y.sh".toList], .directory)]
  workingDirectory := []

theorem isNamed_mixedTree : IsNamed mixedTree :=
  ⟨List.forall_mem_nil _, by decide⟩

theorem isFileIn_mixedTree_iff {name : Text} :
    IsFileIn mixedTree ⟨"a".toList⟩ name ↔ name = "notes".toList ∨ name = "x.sh".toList := by
  have hlocate : mixedTree.locate ⟨"a".toList⟩ = .ok ["a".toList] := by rfl
  constructor
  · intro h
    have hname : name = "notes".toList ∨ name = "x.sh".toList ∨ name = "y.sh".toList := by
      simpa [mixedTree, locations] using h.mem_locations hlocate
    rcases hname with hnotes | hscript | rfl
    · exact .inl hnotes
    · exact .inr hscript
    · obtain ⟨location, content, hlocate', hnode⟩ := h
      obtain rfl : ["a".toList] = location := Except.ok.inj (hlocate.symm.trans hlocate')
      cases hnode
  · rintro (rfl | rfl)
    · exact ⟨_, _, hlocate, by rfl⟩
    · exact ⟨_, _, hlocate, by rfl⟩

/-- Options that write into the directory. -/
def mixedOptions (files : List Text) : Options :=
  { sharedNameOptions with files := files, output? := some ⟨"a".toList⟩ }

/-- A run on the directory that is its output directory too, and a run on the files in it. -/
theorem run_directory_mixed :
    let outcome := run ["-o".toList, "a".toList, "a".toList] none .empty mixedTree
    let outcome' := run ["a/x.sh".toList, "-o".toList, "a".toList, "a/notes".toList] none .empty
      mixedTree
    outcome.exitCode = outcome'.exitCode ∧ outcome.output = outcome'.output ∧
      outcome.tree = outcome'.tree := by
  have hfiles : AreFilesIn mixedTree ⟨"a".toList⟩ ["a/x.sh".toList, "a/notes".toList] := by
    intro file
    simp only [isFileIn_mixedTree_iff, List.mem_cons, List.not_mem_nil, or_false]
    constructor
    · rintro (rfl | rfl)
      · exact ⟨_, .inr rfl, by decide, by rfl⟩
      · exact ⟨_, .inl rfl, by decide, by rfl⟩
    · rintro ⟨name, rfl | rfl, _, rfl⟩
      · exact .inr (by rfl)
      · exact .inl (by rfl)
  have hlisted : IsOpenDirectory mixedTree ⟨"a".toList⟩ := ⟨by rfl, fun _ _ => rfl⟩
  have hasks : AsksForFiles ["-o".toList, "a".toList, "a".toList] (mixedOptions ["a".toList]) :=
    ⟨by rfl, rfl, List.cons_ne_nil _ _⟩
  have hasks' : AsksForFiles ["a/x.sh".toList, "-o".toList, "a".toList, "a/notes".toList]
      (mixedOptions ["a/x.sh".toList, "a/notes".toList]) :=
    ⟨by rfl, rfl, List.cons_ne_nil _ _⟩
  exact run_directory isNamed_mixedTree hlisted hasks hasks' rfl rfl hfiles .rfl .empty .empty

/-! ## Directories that do not mean their files -/

/-- Arguments with one file. -/
def oneFileArguments (file : Text) : List Text :=
  ["-o".toList, "out".toList, file]

def oneFileOptions (file : Text) : Options :=
  { sharedNameOptions with files := [file] }

theorem writesTo_oneFile (file : Text) : WritesTo (oneFileOptions file) ⟨"out".toList⟩ .json :=
  ⟨rfl, by rfl⟩

/-- Whether a run on a directory and one on the path of the only regular file in it end with
different exit codes. -/
structure EndsApart (tree : FileTree) (listed : Path) (file : Text) : Prop where
  named : IsNamed tree
  directory : tree.isDirectory listed = true
  onDirectory : AsksForFiles (oneFileArguments listed.text) (oneFileOptions listed.text)
  onFile : AsksForFiles (oneFileArguments file) (oneFileOptions file)
  only : ∀ other, other = file ↔
    ∃ name, IsFileIn tree listed name ∧ other = (listed.join name).text
  apart : (run (oneFileArguments listed.text) none .empty tree).exitCode ≠
    (run (oneFileArguments file) none .empty tree).exitCode

/-- A path of the directory `a` with slashes at its end. -/
def slashed (k : Nat) : Path :=
  ⟨'a' :: List.replicate k '/'⟩

variable {k : Nat}

theorem withoutEndSlashes_slashed (k : Nat) : withoutEndSlashes (slashed k) = ⟨"a".toList⟩ := by
  rw [withoutEndSlashes, slashed]
  dsimp only
  rw [List.reverse_replicate, List.dropWhile_replicate, if_pos (beq_self_eq_true '/')]
  rfl

theorem utf8Size_slashed (k : Nat) : utf8Size (slashed k).text = k + 1 := by
  have hsizes : utf8Size (['a'] ++ List.replicate k '/') = 1 + k * 1 := by
    rw [utf8Size_append, utf8Size_replicate]
    rfl
  rwa [Nat.mul_one, Nat.add_comm] at hsizes

theorem eq_of_mem_slashed {c : Char} (h : c ∈ (slashed k).text) : c = 'a' ∨ c = '/' :=
  (List.mem_cons.mp h).imp_right List.eq_of_mem_replicate

theorem text_slashed_join (k : Nat) (name : Text) :
    ((slashed (k + 1)).join name).text = (slashed (k + 1)).text ++ name := by
  have hlast : (slashed (k + 1)).text.getLast? = some '/' := by
    rw [slashed, List.replicate_succ', ← List.cons_append, List.getLast?_concat]
  rw [Path.join, if_pos (.inr hlast)]

theorem locate_slashed {location : Location} (hk : k ≤ 4094)
    (hlocate : tree.locate ⟨"a".toList⟩ = .ok location)
    (hnode : tree.node? location = some .directory) : tree.locate (slashed k) = .ok location := by
  rw [← withoutEndSlashes_slashed k] at hlocate
  refine locate_of_withoutEndSlashes (check_eq_ok_iff.mpr ⟨?_, List.cons_ne_nil _ _, ?_⟩) hlocate
    hnode
  · intro hzero
    rcases eq_of_mem_slashed hzero with ha | hslash
    · exact absurd ha (by decide)
    · exact absurd hslash (by decide)
  · rw [utf8Size_slashed]
    omega

/-- A script with a bracket for a name. -/
def bracketTree : FileTree where
  entries := [
    (["a".toList], .directory),
    (["a".toList, "[".toList], .file (encodeUtf8 (shortScript 'f')))]
  workingDirectory := []

/-- The tree with the output directory. -/
def bracketMade : FileTree :=
  bracketTree.set ["out".toList] .directory

theorem asksForFiles_oneFile (k : Nat) (rest : Text) :
    AsksForFiles (oneFileArguments ((slashed k).text ++ rest))
      (oneFileOptions ((slashed k).text ++ rest)) :=
  ⟨by rfl, rfl, List.cons_ne_nil _ _⟩

theorem isNamed_bracketTree : IsNamed bracketTree :=
  ⟨List.forall_mem_nil _, by decide⟩

theorem createDirectories_bracketTree :
    bracketTree.createDirectories ⟨"out".toList⟩ = ⟨bracketMade, none⟩ := by
  rfl

theorem locate_bracketTree (hk : k ≤ 4094) : bracketTree.locate (slashed k) = .ok ["a".toList] :=
  locate_slashed hk (by rfl) (by rfl)

theorem isOpenDirectory_bracketTree (hk : k ≤ 4094) : IsOpenDirectory bracketTree (slashed k) :=
  ⟨isListable_iff.mpr ⟨_, locate_bracketTree hk, by rfl, rfl⟩, fun _ _ => rfl⟩

theorem isFileIn_bracketTree_iff (hk : k ≤ 4094) {name : Text} :
    IsFileIn bracketTree (slashed k) name ↔ name = "[".toList := by
  constructor
  · intro h
    simpa [bracketTree, locations] using h.mem_locations (locate_bracketTree hk)
  · rintro rfl
    exact ⟨_, _, locate_bracketTree hk, by rfl⟩

theorem utf8Size_bracket (k : Nat) :
    utf8Size ((slashed (k + 1)).join "[".toList).text = k + 3 := by
  have hname : utf8Size "[".toList = 1 := by rfl
  rw [text_slashed_join, utf8Size_append, utf8Size_slashed, hname]

/-- The directory stands for nothing, since the path of its only file is beyond the limit. -/
theorem expand_slashed (hk : k + 1 = 4094) :
    (expand bracketMade [(slashed (k + 1)).text]).2 = .ok [] := by
  have hlisted := isOpenDirectory_bracketTree hk.le
  have hgrown := grownAlong_createDirectories bracketTree ⟨"out".toList⟩
  rw [createDirectories_bracketTree] at hgrown
  have hnone : resolved bracketMade (slashed (k + 1)).text = [] := by
    refine List.eq_nil_iff_forall_not_mem.mpr fun p hp => ?_
    obtain ⟨_, name, hin, hsize, _⟩ :=
      (mem_resolved_directory_iff isNamed_bracketTree hgrown hlisted).mp hp
    rw [(isFileIn_bracketTree_iff hk.le).mp hin, utf8Size_bracket] at hsize
    omega
  have hmade := (hgrown.grown.isOpenDirectory hlisted).listable
  refine expand_eq_ok_iff.mpr ⟨List.forall_mem_singleton.mpr (.inr (.inl hmade)), ?_⟩
  rw [List.flatMap_singleton, hnone]
  rfl

/-- The path of the file leads nowhere, and is no pattern either. -/
theorem exists_notValid_bracket (hk : k + 1 = 4094) :
    ∃ failure, NotValid bracketMade ((slashed (k + 1)).join "[".toList).text failure := by
  have hplain : ∀ c ∈ (slashed (k + 1)).text, c ≠ '?' ∧ c ≠ '*' ∧ c ≠ '[' := by
    intro c hc
    rcases eq_of_mem_slashed hc with rfl | rfl
    · decide
    · decide
  have hpattern := Glob.ofText_of_readClass? hplain (by rfl : Glob.readClass? [] = none)
  have habsent : bracketMade.isPresent ⟨((slashed (k + 1)).join "[".toList).text⟩ = false := by
    refine isPresent_eq_false_of_size ?_
    rw [utf8Size_bracket]
    omega
  exact ⟨_, .badPattern habsent (text_slashed_join k _ ▸ hpattern)⟩

/-- The longest path of a directory leads to no file in it. A run on the directory finds nothing
then, but the path of the script in it is read as a pattern, and the run fails. -/
theorem endsApart_slashed (hk : k + 1 = 4094) :
    EndsApart bracketTree (slashed (k + 1)) ((slashed (k + 1)).join "[".toList).text := by
  have hlisted := asksForFiles_oneFile (k + 1) []
  have hfile := asksForFiles_oneFile (k + 1) "[".toList
  rw [List.append_nil] at hlisted
  rw [← text_slashed_join] at hfile
  refine ⟨isNamed_bracketTree, (isOpenDirectory_bracketTree hk.le).isDirectory, hlisted, hfile,
    fun other => ⟨?_, ?_⟩, ?_⟩
  · rintro rfl
    exact ⟨_, (isFileIn_bracketTree_iff hk.le).mpr rfl, rfl⟩
  · rintro ⟨name, hin, rfl⟩
    rw [(isFileIn_bracketTree_iff hk.le).mp hin]
  · obtain ⟨failure, hinvalid⟩ := exists_notValid_bracket hk
    rw [exitCode_of_isWritable hlisted (writesTo_oneFile _) createDirectories_bracketTree
        (expand_slashed hk) (List.forall_mem_nil _) ⟨_, rfl⟩ .empty,
      exitCode_of_notValid hfile (writesTo_oneFile _) createDirectories_bracketTree
        List.mem_cons_self hinvalid ⟨_, rfl⟩ .empty]
    decide

/-- A script in a directory that may not be listed. -/
def unlistedTree : FileTree where
  entries := [
    (["a".toList], .directory),
    (["a".toList, "x.sh".toList], .file (encodeUtf8 (shortScript 'f')))]
  workingDirectory := []
  denials := ⟨[(["a".toList], .read)]⟩

/-- The tree with the output directory. -/
def unlistedMade : FileTree :=
  unlistedTree.set ["out".toList] .directory

theorem isFileIn_unlistedTree_iff {name : Text} :
    IsFileIn unlistedTree ⟨"a".toList⟩ name ↔ name = "x.sh".toList := by
  have hlocate : unlistedTree.locate ⟨"a".toList⟩ = .ok ["a".toList] := by rfl
  constructor
  · intro h
    simpa [unlistedTree, locations] using h.mem_locations hlocate
  · rintro rfl
    exact ⟨_, _, hlocate, by rfl⟩

/-- The script is found by its own path, but that of the directory ends the run. -/
theorem endsApart_unlisted : EndsApart unlistedTree ⟨"a".toList⟩ "a/x.sh".toList := by
  have hlisted : AsksForFiles (oneFileArguments "a".toList) (oneFileOptions "a".toList) :=
    ⟨by rfl, rfl, List.cons_ne_nil _ _⟩
  have hfile : AsksForFiles (oneFileArguments "a/x.sh".toList) (oneFileOptions "a/x.sh".toList) :=
    ⟨by rfl, rfl, List.cons_ne_nil _ _⟩
  have hcreated : unlistedTree.createDirectories ⟨"out".toList⟩ = ⟨unlistedMade, none⟩ := by rfl
  have hexpand : (expand unlistedMade ["a/x.sh".toList]).2 = .ok [⟨"a/x.sh".toList⟩] := by rfl
  have hwritable : IsWritable unlistedMade ⟨"out".toList⟩ .json ⟨"a/x.sh".toList⟩ := by
    refine ⟨⟨by decide, by decide⟩, by rfl, fun root hroot => ?_⟩
    obtain rfl : ["out".toList] = root := Except.ok.inj hroot
    exact ⟨by rfl, by rfl⟩
  refine ⟨⟨List.forall_mem_nil _, by decide⟩, by rfl, hlisted, hfile, fun other => ⟨?_, ?_⟩, ?_⟩
  · rintro rfl
    exact ⟨_, isFileIn_unlistedTree_iff.mpr rfl, by rfl⟩
  · rintro ⟨name, hin, rfl⟩
    rw [isFileIn_unlistedTree_iff.mp hin]
    rfl
  · rw [exitCode_of_notValid hlisted (writesTo_oneFile _) hcreated List.mem_cons_self
        (.notListed (by rfl) (by rfl)) ⟨_, rfl⟩ .empty,
      exitCode_of_isWritable hfile (writesTo_oneFile _) hcreated hexpand
        (List.forall_mem_singleton.mpr hwritable) ⟨_, rfl⟩ .empty]
    decide

/-- A directory does not mean its files if it is spelled at the greatest length, and not if it may
not be listed. -/
theorem run_directory_endsApart :
    EndsApart bracketTree (slashed 4094) ((slashed 4094).join "[".toList).text ∧
      EndsApart unlistedTree ⟨"a".toList⟩ "a/x.sh".toList := by
  obtain ⟨k, hk⟩ : ∃ k, k + 1 = 4094 := ⟨4093, rfl⟩
  exact ⟨hk ▸ endsApart_slashed hk, endsApart_unlisted⟩

end ShellDoc.CommandLine
