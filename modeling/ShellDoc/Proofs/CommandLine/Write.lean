import Mathlib.Data.List.Infix
import ShellDoc.CommandLine.Run
import ShellDoc.Proofs.Source.Documented

/-!
# Writing outputs

What `writeAll` does to a tree in which the output directory is there. Sources are written in order
into one directory, under names that no source has. So the sources stay as they were, what is
written for each of them depends on the first tree alone, and of several outputs with the same name
the last one stays (`exists_writeAll_eq`, `node?_stored`).
-/

namespace ShellDoc

/-- Whether an event is that an output replaces an earlier one. -/
def Event.isOverwrite : Event → Bool
  | .overwrites .. => true
  | _ => false

namespace CommandLine

open Source FileTree

variable {made tree : FileTree} {marker : Char} {format : Format} {directory p : Path}
  {root : Location}

/-! ## Outputs that replace others -/

/-- Whether two sources have outputs of the same name. -/
def sharesOutput (p q : Path) : Bool :=
  outputName q == outputName p

/-- The event that the output for a source replaces the latest of those before it with the same
name, if there is one. The sources before it are in the order in which they were written. -/
def overwrite? (directory : Path) (format : Format) (earlier : List Path) (p : Path) :
    Option Event :=
  (earlier.reverse.find? (sharesOutput p)).map fun previous =>
    .overwrites p previous (outputPath directory format p)

/-- The events that outputs replace others, when those for sources are written in order. -/
def overwrites (directory : Path) (format : Format) (sources : List Path) : List Event :=
  (sources.inits.zip sources).filterMap fun (earlier, p) => overwrite? directory format earlier p

/-- The same events when other sources have been written before. -/
def overwritesAfter (directory : Path) (format : Format) (earlier sources : List Path) :
    List Event :=
  (sources.inits.zip sources).filterMap fun (before, p) =>
    overwrite? directory format (earlier ++ before) p

theorem overwritesAfter_cons (earlier : List Path) (p : Path) (rest : List Path) :
    overwritesAfter directory format earlier (p :: rest) =
      (overwrite? directory format earlier p).toList ++
        overwritesAfter directory format (earlier ++ [p]) rest := by
  have hrest : (((rest.inits.map (p :: ·)).zip rest).filterMap fun (before, q) =>
        overwrite? directory format (earlier ++ before) q) =
      overwritesAfter directory format (earlier ++ [p]) rest := by
    rw [List.zip_map_left, List.filterMap_map, overwritesAfter]
    congr 1
    funext pair
    simp only [Function.comp_apply, Prod.map, id, List.append_assoc, List.singleton_append]
  rw [overwritesAfter, List.inits_cons, List.zip_cons_cons, List.filterMap_cons, hrest]
  dsimp only
  rw [List.append_nil]
  cases overwrite? directory format earlier p with
  | none => rfl
  | some e => rfl

theorem outputPath_eq_iff {q : Path} :
    outputPath directory format q = outputPath directory format p ↔
      outputName q = outputName p := by
  refine ⟨fun h => ?_, fun h => by rw [outputPath, outputPath, h]⟩
  exact List.append_cancel_right (Path.join_injective directory h)

/-- The outputs for sources with the sources themselves, the latest first. -/
def outputsOf (directory : Path) (format : Format) (sources : List Path) : List (Path × Path) :=
  sources.reverse.map fun p => (outputPath directory format p, p)

theorem outputsOf_concat (sources : List Path) (p : Path) :
    outputsOf directory format (sources ++ [p]) =
      (outputPath directory format p, p) :: outputsOf directory format sources := by
  rw [outputsOf, List.reverse_concat, List.map_cons, outputsOf]

theorem noteOverwrite_outputsOf (earlier : List Path) (p : Path) :
    noteOverwrite (outputsOf directory format earlier) p (outputPath directory format p) =
      (overwrite? directory format earlier p).toList := by
  have hlookup : ∀ sources : List Path,
      (sources.map fun q => (outputPath directory format q, q)).lookup
          (outputPath directory format p) = sources.find? (sharesOutput p) := by
    intro sources
    induction sources with
    | nil => rfl
    | cons q rest ih =>
      rw [List.map_cons, List.lookup_cons, ih]
      by_cases h : outputName q = outputName p
      · have hshares : sharesOutput p q = true := beq_iff_eq.mpr h
        rw [List.find?_cons_of_pos hshares, beq_iff_eq.mpr (outputPath_eq_iff.mpr h).symm]
      · have hshares : ¬ sharesOutput p q = true := fun hq => h (beq_iff_eq.mp hq)
        have hpath : outputPath directory format p ≠ outputPath directory format q :=
          fun hq => h (outputPath_eq_iff.mp hq.symm)
        rw [List.find?_cons_of_neg hshares, beq_eq_false_iff_ne.mpr hpath]
  rw [noteOverwrite, outputsOf, hlookup, overwrite?]
  cases earlier.reverse.find? (sharesOutput p) with
  | none => rfl
  | some previous => rfl

/-! ## Where outputs go -/

/-- Whether a path, not the empty one, leads to a directory at a location. -/
structure LeadsToDirectory (tree : FileTree) (directory : Path) (root : Location) : Prop where
  ne_nil : directory.text ≠ []
  locate : tree.locate directory = .ok root
  node? : tree.node? root = some .directory

/-- Whether the output for a source keeps to the limits of file systems. -/
structure WithinLimits (directory : Path) (format : Format) (p : Path) : Prop where
  name : utf8Size (outputName p ++ '.' :: format.extension) ≤ 255
  path : utf8Size (outputPath directory format p).text ≤ 4095

/-- Where the output for a source is. -/
def place (root : Location) (format : Format) (p : Path) : Location :=
  root ++ [outputFile format p]

/-- Whether the output for a source may be put into the directory at a path: the directory may be
entered, and the output may be written over, or made if there is none. -/
def MayBePut (tree : FileTree) (directory : Path) (format : Format) (p : Path) : Prop :=
  ∀ root, tree.locate directory = .ok root →
    tree.allows .enter root = true ∧ tree.mayPut (place root format p) = true

/-- Where nothing is denied, all outputs may be put. -/
theorem mayBePut_of_nothing_denied (h : tree.denials.denied = []) (directory : Path)
    (format : Format) (p : Path) : MayBePut tree directory format p := by
  have hallows : ∀ right location, tree.allows right location = true := by
    intro right location
    rw [allows, h]
    rfl
  intro root _
  rw [mayPut, hallows, hallows, hallows, Bool.or_true]
  exact ⟨rfl, rfl⟩

/-- Whether nothing stands in the way of the output for a source: it keeps to the limits, no
directory stands where it goes, and it may be put there. -/
structure IsWritable (made : FileTree) (directory : Path) (format : Format) (p : Path) : Prop where
  limits : WithinLimits directory format p
  free : made.isDirectory (outputPath directory format p) = false
  allowed : MayBePut made directory format p

theorem place_ne_nil (root : Location) (format : Format) (p : Path) : place root format p ≠ [] :=
  List.append_ne_nil_of_right_ne_nil _ (List.cons_ne_nil _ _)

theorem place_eq_iff {q : Path} :
    place root format q = place root format p ↔ outputName q = outputName p := by
  refine ⟨fun h => ?_, fun h => by rw [place, place, outputFile, outputFile, h]⟩
  have hfile := (List.cons.inj (List.append_cancel_left h)).1
  exact List.append_cancel_right hfile

theorem locate_outputPath (hdirectory : LeadsToDirectory made directory root)
    (hfile : made.isFile p = true) (hlimits : WithinLimits directory format p)
    (henter : made.allows .enter root = true) :
    made.locate (outputPath directory format p) = .ok (place root format p) := by
  obtain ⟨_, _, hlocate, _⟩ := isFile_iff.mp hfile
  obtain ⟨hsource, _, _⟩ := check_eq_ok_iff.mp (locate_eq_ok_iff.mp hlocate).1
  obtain ⟨htarget, _, _⟩ := check_eq_ok_iff.mp (locate_eq_ok_iff.mp hdirectory.locate).1
  have hname : '\x00' ∉ outputFile format p := by
    rw [outputFile, List.mem_append, not_or]
    refine ⟨fun h => hsource (mem_outputName h).1, ?_⟩
    cases format <;> decide
  have hcheck : check (outputPath directory format p) = .ok () := by
    refine check_eq_ok_iff.mpr ⟨fun hzero => ?_, Path.text_join_ne_nil hdirectory.ne_nil,
      hlimits.path⟩
    rcases Path.mem_text_join hzero with hzero | hzero | hzero
    · exact htarget hzero
    · exact absurd hzero (by decide)
    · exact hname hzero
  exact locate_join hdirectory.locate hdirectory.node? henter
    (isEntryName_outputFile format p) hlimits.name hcheck

/-- Nothing is written beyond the limits. -/
theorem exists_write_eq_error (hdirectory : directory.text ≠ [])
    (hlimits : ¬ WithinLimits directory format p) (tree : FileTree) (content : ByteArray) :
    ∃ cause, tree.write (outputPath directory format p) content = .error cause := by
  cases hlocate : tree.locate (outputPath directory format p) with
  | error cause => exact ⟨cause, by rw [write, hlocate]; rfl⟩
  | ok location =>
    obtain ⟨hcheck, hwalk⟩ := locate_eq_ok_iff.mp hlocate
    obtain ⟨inner, hsegments, _⟩ :=
      Path.segments_join hdirectory (isEntryName_outputFile format p).noSlash
    rw [outputPath, ← outputFile, hsegments] at hwalk
    obtain ⟨_, _, hlast⟩ := walk_append_eq_ok_iff.mp hwalk
    obtain ⟨_, _, hname, _⟩ := walk_cons_eq_ok_iff.mp hlast
    exact absurd ⟨hname, (check_eq_ok_iff.mp hcheck).2.2⟩ hlimits

/-! ## One source -/

/-- The bytes of the output for a source that is read from a tree. -/
def outputBytes (made : FileTree) (marker : Char) (format : Format) (p : Path) : ByteArray :=
  encodeUtf8 (format.print (functionsIn made marker p))

/-- The tree with the output for a source that is read from an earlier tree. -/
def stored (made : FileTree) (marker : Char) (format : Format) (root : Location) (tree : FileTree)
    (p : Path) : FileTree :=
  tree.set (place root format p) (.file (outputBytes made marker format p))

theorem writeAll_cons_of_not_isDocumented (h : isDocumented tree marker p = false) (format : Format)
    (directory : Path) (written : List (Path × Path)) (rest : List Path) :
    ∃ e, e.isOverwrite = false ∧ writeAll marker format directory written tree (p :: rest) =
      let report := writeAll marker format directory written tree rest
      { report with events := e :: report.events } := by
  rw [writeAll]
  rcases readFunctions_of_not_isDocumented h with hread | ⟨reason, hread⟩
  · exact ⟨.parsed p 0, rfl, by rw [hread]⟩
  · exact ⟨.skipped p reason, rfl, by rw [hread]⟩

theorem writeAll_cons_of_write_eq_ok {written : List (Path × Path)} {rest : List Path}
    {after : FileTree} (hp : isDocumented tree marker p = true)
    (hwrite : tree.write (outputPath directory format p) (outputBytes tree marker format p) =
      .ok after) :
    writeAll marker format directory written tree (p :: rest) =
      let output := outputPath directory format p
      let report := writeAll marker format directory ((output, p) :: written) after rest
      { report with
        events := .parsed p (functionsIn tree marker p).length ::
          noteOverwrite written p output ++ .wrote output :: report.events } := by
  obtain ⟨hread, hne⟩ := readFunctions_of_isDocumented hp
  obtain ⟨f, fs, hfunctions⟩ := List.exists_cons_of_ne_nil hne
  rw [writeAll, hread, hfunctions]
  dsimp only
  rw [← hfunctions, ← outputBytes, hwrite]

/-- An output that cannot be written ends the run. -/
theorem writeAll_cons_of_write_eq_error {written : List (Path × Path)} {rest : List Path}
    {cause : FileError} (hp : isDocumented tree marker p = true)
    (hwrite : tree.write (outputPath directory format p) (outputBytes tree marker format p) =
      .error cause) :
    writeAll marker format directory written tree (p :: rest) =
      let output := outputPath directory format p
      ⟨.parsed p (functionsIn tree marker p).length :: noteOverwrite written p output,
        .error (.notWritten output cause), tree⟩ := by
  obtain ⟨hread, hne⟩ := readFunctions_of_isDocumented hp
  obtain ⟨f, fs, hfunctions⟩ := List.exists_cons_of_ne_nil hne
  rw [writeAll, hread, hfunctions]
  dsimp only
  rw [← hfunctions, ← outputBytes, hwrite]

theorem filter_overwrite? (earlier : List Path) (p : Path) :
    (overwrite? directory format earlier p).toList.filter Event.isOverwrite =
      (overwrite? directory format earlier p).toList := by
  rw [overwrite?]
  cases earlier.reverse.find? (sharesOutput p) with
  | none => rfl
  | some previous => rfl

/-- What is written where an output goes changes nothing about the sources. -/
theorem IsWritable.write_eq_ok (h : IsWritable made directory format p)
    (hdirectory : LeadsToDirectory made directory root) (hfile : made.isFile p = true)
    (hwritten : Written made tree) (content : ByteArray) :
    let after := tree.set (place root format p) (.file content)
    tree.write (outputPath directory format p) content = .ok after ∧ Written made after := by
  obtain ⟨henter, hput⟩ := h.allowed root hdirectory.locate
  rw [← hwritten.mayPut] at hput
  have hlocate := locate_outputPath hdirectory hfile h.limits henter
  have hnode : made.node? (place root format p) ≠ some .directory := by
    intro hnode
    have hfree := h.free
    rw [isDirectory_iff.mpr ⟨_, hlocate, hnode⟩] at hfree
    cases hfree
  refine ⟨write_eq_ok_iff.mpr ⟨_, hwritten.keepsDirectories.locate hlocate, ?_, hput, rfl⟩,
    hwritten.set (isSourceName_outputFile format p) hnode hput _⟩
  exact fun h => hnode ((hwritten.directory _).mp h)

/-- If something is written where an output goes, nothing stood in its way. -/
theorem isWritable_of_write_eq_ok (hdirectory : LeadsToDirectory made directory root)
    (hwritten : Written made tree) {content : ByteArray} {after : FileTree}
    (hwrite : tree.write (outputPath directory format p) content = .ok after) :
    IsWritable made directory format p := by
  obtain ⟨location, hlocate, hnode, hput, _⟩ := write_eq_ok_iff.mp hwrite
  have hlimits : WithinLimits directory format p := by
    by_contra hlimits
    obtain ⟨cause, herror⟩ := exists_write_eq_error hdirectory.ne_nil hlimits tree content
    rw [hwrite] at herror
    cases herror
  refine ⟨hlimits, Bool.eq_false_iff.mpr fun hthere => hnode ?_, fun other hother => ?_⟩
  · obtain ⟨there, hplace, hdirectory⟩ := isDirectory_iff.mp hthere
    obtain rfl : location = there :=
      Except.ok.inj (hlocate.symm.trans (hwritten.keepsDirectories.locate hplace))
    exact (hwritten.directory location).mpr hdirectory
  · obtain rfl : root = other := Except.ok.inj (hdirectory.locate.symm.trans hother)
    obtain ⟨_, henter, _, rfl⟩ := (locate_join_eq_ok_iff
      (hwritten.keepsDirectories.locate hdirectory.locate)
      ((hwritten.directory root).mpr hdirectory.node?) (isEntryName_outputFile format p)).mp hlocate
    rw [allows_congr hwritten.denials] at henter
    rw [hwritten.mayPut] at hput
    exact ⟨henter, hput⟩

/-- The output for a documented source is written, and the sources are still the same. -/
theorem writeAll_cons_of_isDocumented (hdirectory : LeadsToDirectory made directory root)
    (hfile : made.isFile p = true) (hp : isDocumented made marker p = true)
    (hwritable : IsWritable made directory format p) (hwritten : Written made tree)
    (earlier rest : List Path) :
    Written made (stored made marker format root tree p) ∧
      writeAll marker format directory (outputsOf directory format earlier) tree (p :: rest) =
        let report := writeAll marker format directory (outputsOf directory format (earlier ++ [p]))
          (stored made marker format root tree p) rest
        { report with
          events := .parsed p (functionsIn made marker p).length ::
            (overwrite? directory format earlier p).toList ++
              .wrote (outputPath directory format p) :: report.events } := by
  obtain ⟨hwrite, hkept⟩ := hwritable.write_eq_ok hdirectory hfile hwritten
    (outputBytes made marker format p)
  have hfunctions : functionsIn tree marker p = functionsIn made marker p :=
    hwritten.functionsIn hfile (isShellSource_of_isDocumented hp)
  rw [outputBytes, ← hfunctions, ← outputBytes] at hwrite
  refine ⟨hkept, ?_⟩
  rw [outputsOf_concat, ← noteOverwrite_outputsOf, stored, outputBytes, ← hfunctions]
  exact writeAll_cons_of_write_eq_ok ((hwritten.isDocumented hfile).trans hp) hwrite

/-! ## All sources -/

/-- Writing further sources behind earlier ones. -/
theorem writeAll_behind (hdirectory : LeadsToDirectory made directory root) {sources : List Path}
    (hfiles : ∀ p ∈ sources, made.isFile p = true)
    (hwritable : ∀ p ∈ sources, isDocumented made marker p = true →
      IsWritable made directory format p)
    (hwritten : Written made tree) (earlier : List Path) :
    let documented := sources.filter (isDocumented made marker)
    let report := writeAll marker format directory (outputsOf directory format earlier) tree sources
    report.result = .ok [] ∧
      report.tree = documented.foldl (stored made marker format root) tree ∧
      Written made report.tree ∧
      report.events.filter Event.isOverwrite =
        overwritesAfter directory format earlier documented := by
  induction sources generalizing tree earlier with
  | nil => exact ⟨rfl, rfl, hwritten, rfl⟩
  | cons p rest ih =>
    obtain ⟨hfile, hfiles⟩ := List.forall_mem_cons.mp hfiles
    obtain ⟨hfirst, hwritable⟩ := List.forall_mem_cons.mp hwritable
    cases hp : isDocumented made marker p with
    | false =>
      have hp' : isDocumented tree marker p = false := (hwritten.isDocumented hfile).trans hp
      obtain ⟨hresult, htree, hkept, hevents⟩ := ih hfiles hwritable hwritten earlier
      obtain ⟨e, he, hstep⟩ := writeAll_cons_of_not_isDocumented hp' format directory
        (outputsOf directory format earlier) rest
      rw [List.filter_cons_of_neg (by rw [hp]; decide), hstep]
      refine ⟨hresult, htree, hkept, ?_⟩
      rw [← hevents]
      exact List.filter_cons_of_neg (by rw [he]; decide)
    | true =>
      obtain ⟨hnext, hstep⟩ := writeAll_cons_of_isDocumented hdirectory hfile hp (hfirst hp)
        hwritten earlier rest
      obtain ⟨hresult, htree, hkept, hevents⟩ := ih hfiles hwritable hnext (earlier ++ [p])
      rw [List.filter_cons_of_pos hp, hstep]
      refine ⟨hresult, htree, hkept, ?_⟩
      rw [overwritesAfter_cons, ← hevents]
      simp only [List.cons_append, List.filter_cons, List.filter_append, filter_overwrite?,
        Event.isOverwrite, Bool.false_eq_true, ↓reduceIte]

/-- If nothing fails, nothing stood in the way of any output. -/
theorem isWritable_of_writeAll (hdirectory : LeadsToDirectory made directory root)
    {sources : List Path} (hfiles : ∀ p ∈ sources, made.isFile p = true)
    (hwritten : Written made tree) {written : List (Path × Path)} {output : Text}
    (h : (writeAll marker format directory written tree sources).result = .ok output) :
    ∀ p ∈ sources, isDocumented made marker p = true → IsWritable made directory format p := by
  induction sources generalizing tree written with
  | nil => exact List.forall_mem_nil _
  | cons q rest ih =>
    obtain ⟨hfile, hfiles⟩ := List.forall_mem_cons.mp hfiles
    have hq : isDocumented tree marker q = isDocumented made marker q :=
      hwritten.isDocumented hfile
    cases hdocumented : isDocumented made marker q with
    | false =>
      obtain ⟨_, _, hstep⟩ := writeAll_cons_of_not_isDocumented (hq.trans hdocumented) format
        directory written rest
      rw [hstep] at h
      refine List.forall_mem_cons.mpr ⟨fun hother => ?_, ih hfiles hwritten h⟩
      rw [hdocumented] at hother
      cases hother
    | true =>
      cases hwrite : tree.write (outputPath directory format q)
          (outputBytes tree marker format q) with
      | error cause =>
        rw [writeAll_cons_of_write_eq_error (hq.trans hdocumented) hwrite] at h
        cases h
      | ok after =>
        have hwritable := isWritable_of_write_eq_ok hdirectory hwritten hwrite
        obtain ⟨hwrite', hkept⟩ := hwritable.write_eq_ok hdirectory hfile hwritten
          (outputBytes tree marker format q)
        obtain rfl := Except.ok.inj (hwrite'.symm.trans hwrite)
        rw [writeAll_cons_of_write_eq_ok (hq.trans hdocumented) hwrite] at h
        exact List.forall_mem_cons.mpr ⟨fun _ => hwritable, ih hfiles hkept h⟩

/-- An output for each documented source is written in order. Nothing fails, and exactly the outputs
that replace others are reported. -/
theorem exists_writeAll_eq (hdirectory : LeadsToDirectory made directory root)
    {sources : List Path} (hfiles : ∀ p ∈ sources, made.isFile p = true)
    (hwritable : ∀ p ∈ sources, isDocumented made marker p = true →
      IsWritable made directory format p) :
    let documented := sources.filter (isDocumented made marker)
    ∃ events, writeAll marker format directory [] made sources =
        ⟨events, .ok [], documented.foldl (stored made marker format root) made⟩ ∧
      Written made (documented.foldl (stored made marker format root) made) ∧
      events.filter Event.isOverwrite = overwrites directory format documented := by
  intro documented
  obtain ⟨hresult, htree, hwritten, hevents⟩ :=
    writeAll_behind hdirectory hfiles hwritable (.refl made) []
  refine ⟨_, ?_, htree ▸ hwritten, hevents⟩
  rw [← hresult, ← htree]
  rfl

/-- Of several outputs at one place the last one stays, and elsewhere nothing changes. -/
theorem node?_stored (sources : List Path) (tree : FileTree) (location : Location) :
    (sources.foldl (stored made marker format root) tree).node? location =
      ((sources.reverse.find? fun p => decide (place root format p = location)).map fun p =>
        Node.file (outputBytes made marker format p)).or
        (tree.node? location) := by
  induction sources generalizing tree with
  | nil => rfl
  | cons p rest ih =>
    rw [List.foldl_cons, ih, List.reverse_cons, List.find?_append, stored,
      node?_set (place_ne_nil root format p)]
    cases rest.reverse.find? fun q => decide (place root format q = location) with
    | some q => rfl
    | none =>
      by_cases h : place root format p = location
      · simp [h]
      · simp [h, Ne.symm h]

/-- The output for a source is that of the last source with the same name. -/
theorem exists_last_of_stored {sources : List Path} (hp : p ∈ sources)
    (hlocate : made.locate (outputPath directory format p) = .ok (place root format p))
    (hsame : SameSources made (sources.foldl (stored made marker format root) made)) :
    ∃ last, sources.reverse.find? (sharesOutput p) = some last ∧ last ∈ sources ∧
      (sources.foldl (stored made marker format root) made).Holds (outputPath directory format p)
        (outputBytes made marker format last) := by
  have hshares : sharesOutput p p = true := beq_self_eq_true _
  have hplace : (fun q => decide (place root format q = place root format p)) = sharesOutput p := by
    funext q
    rw [sharesOutput, Bool.eq_iff_iff, decide_eq_true_iff, beq_iff_eq, place_eq_iff]
  cases hlast : sources.reverse.find? (sharesOutput p) with
  | none =>
    have hnone := List.find?_eq_none.mp hlast p (List.mem_reverse.mpr hp)
    exact absurd hshares hnone
  | some last =>
    refine ⟨last, rfl, List.mem_reverse.mp (List.mem_of_find?_eq_some hlast), ?_⟩
    refine lookup_eq_ok_iff.mpr ⟨_, hsame.keepsDirectories.locate hlocate, ?_⟩
    rw [node?_stored, hplace, hlast]
    rfl

/-- Where no output goes, nothing changes. -/
theorem node?_stored_of_ne {sources : List Path} {location : Location}
    (h : ∀ p ∈ sources, place root format p ≠ location) (tree : FileTree) :
    (sources.foldl (stored made marker format root) tree).node? location =
      tree.node? location := by
  have hnone : (sources.reverse.find? fun p => decide (place root format p = location)) = none := by
    refine List.find?_eq_none.mpr fun p hp => ?_
    rw [decide_eq_true_iff]
    exact h p (List.mem_reverse.mp hp)
  rw [node?_stored, hnone]
  rfl

end CommandLine

end ShellDoc
