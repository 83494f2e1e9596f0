import ShellDoc.CommandLine.Arguments
import ShellDoc.Proofs.Except

/-!
# What arguments ask for

The output directory of a run is never the empty path: an empty value is no value
(`output_ne_nil_of_parse`). Every way to read arguments keeps this of what has been gathered.
-/

namespace ShellDoc.CommandLine

namespace Gathered

/-- Whether an output directory, once given, has a path that is not empty. -/
def NamesOutput (g : Gathered) : Prop :=
  ∀ directory, g.output? = some directory → directory.text ≠ []

variable {g g' : Gathered}

theorem NamesOutput.take (hg : g.NamesOutput) {s : Setting} {value : Text}
    (h : g.take s value = .ok g') : g'.NamesOutput := by
  unfold Gathered.take at h
  split at h
  · cases h
  · split at h
    · cases h
    next hvalue =>
      cases h
      rintro _ ⟨⟩ hnil
      exact hvalue hnil
    · cases h
      exact hg
    · cases h
      exact hg
    · cases h

theorem NamesOutput.settle (hg : g.NamesOutput) (h : g.settle = .ok g') : g'.NamesOutput := by
  unfold Gathered.settle at h
  split at h
  · cases h
    exact hg
  · cases h
  · exact NamesOutput.take (g := { g with pending? := none }) hg h

theorem NamesOutput.takeSetting (hg : g.NamesOutput) {s : Setting} {attached? : Option Text}
    (h : g.takeSetting s attached? = .ok g') : g'.NamesOutput := by
  obtain ⟨settled, hsettled, h⟩ := bind_eq_ok_iff.mp h
  have hkept := hg.settle hsettled
  cases attached? with
  | some value => exact hkept.take h
  | none =>
    cases h
    exact hkept

theorem NamesOutput.takeFlag (hg : g.NamesOutput) {f : Flag} (h : g.takeFlag f = .ok g') :
    g'.NamesOutput := by
  obtain ⟨settled, hsettled, h⟩ := bind_eq_ok_iff.mp h
  have hkept := hg.settle hsettled
  split at h
  · cases h
  · cases h
    exact hkept

theorem NamesOutput.takeFile (hg : g.NamesOutput) {file : Text} (h : g.takeFile file = .ok g') :
    g'.NamesOutput := by
  obtain ⟨settled, hsettled, h⟩ := bind_eq_ok_iff.mp h
  have hkept := hg.settle hsettled
  cases h
  exact hkept

theorem NamesOutput.takeWord (hg : g.NamesOutput) {word : Text} (h : g.takeWord word = .ok g') :
    g'.NamesOutput := by
  unfold Gathered.takeWord at h
  split at h
  · cases h
    exact hg
  · exact NamesOutput.takeFile hg h

end Gathered

/-- Whether a step leaves an output directory with a path that is not empty. -/
def Step.NamesOutput : Step → Prop
  | .next g => g.NamesOutput
  | .help => True

variable {g : Gathered} {step : Step}

/-- A step that gathers something leaves what was gathered. -/
theorem Step.namesOutput_next {x : Except UsageError Gathered}
    (hx : ∀ g', x = .ok g' → g'.NamesOutput) (h : Step.next <$> x = .ok step) :
    step.NamesOutput := by
  obtain ⟨g', hg', rfl⟩ := map_eq_ok_iff.mp h
  exact hx g' hg'

theorem namesOutput_readSwitch (hg : g.NamesOutput) {switch : Switch}
    (h : readSwitch g switch = .ok step) : step.NamesOutput := by
  cases switch with
  | setting s => exact Step.namesOutput_next (fun _ => hg.takeSetting) h
  | flag f => exact Step.namesOutput_next (fun _ => hg.takeFlag) h
  | help =>
    obtain ⟨_, _, h⟩ := bind_eq_ok_iff.mp h
    cases h
    trivial

theorem namesOutput_readLong (hg : g.NamesOutput) {argument : Text}
    (h : readLong g argument = .ok step) : step.NamesOutput := by
  unfold readLong at h
  dsimp only at h
  split at h
  · cases h
  · exact namesOutput_readSwitch hg h
  · exact Step.namesOutput_next (fun _ => hg.takeSetting) h
  · cases h

theorem namesOutput_readShort (hg : g.NamesOutput) {argument : Text}
    (h : readShort g argument = .ok step) : step.NamesOutput := by
  induction argument generalizing g with
  | nil =>
    cases h
    exact hg
  | cons c rest ih =>
    unfold readShort at h
    split at h
    · cases h
    · exact Step.namesOutput_next (fun _ => hg.takeSetting) h
    · exact Step.namesOutput_next (fun _ => hg.takeSetting) h
    · obtain ⟨first, hfirst, h⟩ := bind_eq_ok_iff.mp h
      have hkept := namesOutput_readSwitch hg hfirst
      cases first with
      | next g' => exact ih hkept h
      | help =>
        cases h
        trivial

theorem namesOutput_readArgument (hg : g.NamesOutput) {argument : Text}
    (h : readArgument g argument = .ok step) : step.NamesOutput := by
  unfold readArgument at h
  split at h
  · exact namesOutput_readLong hg h
  · exact namesOutput_readShort hg h
  · exact Step.namesOutput_next (fun _ => hg.takeWord) h

theorem namesOutput_foldlM_takeFile (hg : g.NamesOutput) {files : List Text} {g' : Gathered}
    (h : files.foldlM Gathered.takeFile g = .ok g') : g'.NamesOutput := by
  induction files generalizing g with
  | nil =>
    cases h
    exact hg
  | cons file rest ih =>
    rw [List.foldlM_cons] at h
    obtain ⟨taken, htaken, h⟩ := bind_eq_ok_iff.mp h
    exact ih (hg.takeFile htaken) h

theorem namesOutput_readArguments (hg : g.NamesOutput) {arguments : List Text}
    (h : readArguments g arguments = .ok step) : step.NamesOutput := by
  induction arguments generalizing g with
  | nil => exact Step.namesOutput_next (fun _ => hg.settle) h
  | cons argument rest ih =>
    unfold readArguments at h
    split at h
    · obtain ⟨g', hg', h⟩ := bind_eq_ok_iff.mp h
      have hkept := namesOutput_foldlM_takeFile hg hg'
      exact Step.namesOutput_next (fun _ => hkept.settle) h
    · obtain ⟨first, hfirst, h⟩ := bind_eq_ok_iff.mp h
      have hkept := namesOutput_readArgument hg hfirst
      cases first with
      | next g' => exact ih hkept h
      | help =>
        cases h
        trivial

/-- The output directory that arguments name has a path that is not empty. -/
theorem output_ne_nil_of_parse {arguments : List Text} {options : Options} {directory : Path}
    (h : parse arguments = .ok (.run options)) (houtput : options.output? = some directory) :
    directory.text ≠ [] := by
  obtain ⟨step, hstep, h⟩ := bind_eq_ok_iff.mp h
  have hstart : Gathered.start.NamesOutput := fun _ hnone => nomatch hnone
  have hkept := namesOutput_readArguments hstart hstep
  cases step with
  | next g =>
    cases h
    exact hkept directory houtput
  | help => cases h

end ShellDoc.CommandLine
