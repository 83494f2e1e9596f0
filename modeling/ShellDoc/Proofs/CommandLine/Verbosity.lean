import ShellDoc.Proofs.CommandLine.Course

/-!
# Verbosity

How much a run says of itself is settled by the flags and the log setting, and settles nothing else.
A run gathers the same events and comes to the same end at every level (`runWith_verbosity`); the
level in force only picks the events that are shown (`errors_outcome`). So of two runs the one that
is at least as talkative shows all that the other shows, in the same order and in front of the same
report of a failure (`run_verbosity`).

The level in force is that of an event, for a log setting may give different levels to events with
different fields. And a log setting may do more than pick events, for its reader may break off
(`run_verbosity_apart`).
-/

namespace ShellDoc

/-! ## Levels -/

/-- How talkative a threshold is: the rank of the least severe level that it shows, and zero if it
shows nothing. -/
def Threshold.rank : Threshold → Nat
  | none => 0
  | some level => level.rank

theorem Threshold.admits_iff {threshold : Threshold} {level : Level} :
    threshold.admits level = true ↔ level.rank ≤ threshold.rank := by
  cases threshold with
  | none => cases level <;> decide
  | some least => exact decide_eq_true_iff

theorem Filter.threshold_ofLevel (level : Level) (e : Event) :
    (Filter.ofLevel level).threshold e = some level := rfl

/-- A log setting of one level, and no more, gives it to all events. -/
theorem Filter.threshold_everything (threshold : Threshold) (e : Event) :
    Filter.threshold [⟨.everything, threshold⟩] e = threshold := rfl

namespace CommandLine

variable {options options' : Options} {arguments arguments' : List Text}

/-- The level in force for an event: that of the flags, the talkative one first, or else that of the
log setting if there is one that can be read, or else all down to what was written. -/
def levelInForce (options : Options) (setting? : Option Text) (e : Event) : Threshold :=
  if options.verbose then some .debug
  else if options.quiet then some .error
  else
    match setting?.map Filter.ofSetting with
    | some (.ok filter) => filter.threshold e
    | some (.error _) | none => some .info

theorem threshold_filterInForce {setting? : Option Text} {filter : Filter}
    (hfilter : filterInForce? options setting? = some filter) (e : Event) :
    filter.threshold e = levelInForce options setting? e := by
  rw [filterInForce?] at hfilter
  rw [levelInForce]
  by_cases hverbose : options.verbose = true
  · rw [if_pos hverbose] at hfilter ⊢
    rw [← Option.some.inj hfilter, Filter.threshold_ofLevel]
  · rw [if_neg hverbose] at hfilter ⊢
    by_cases hquiet : options.quiet = true
    · rw [if_pos hquiet] at hfilter ⊢
      rw [← Option.some.inj hfilter, Filter.threshold_ofLevel]
    · rw [if_neg hquiet] at hfilter ⊢
      split at hfilter
      next hsetting => rw [hsetting, Option.some.inj hfilter]
      next => cases hfilter
      next hsetting => rw [hsetting, ← Option.some.inj hfilter, Filter.threshold_ofLevel]
      next hsetting => rw [hsetting, ← Option.some.inj hfilter, Filter.threshold_ofLevel]

/-! ## What is shown -/

/-- The lines of the events that are shown when each is held against a level of its own. -/
def shownAt (level : Event → Threshold) (events : List Event) : Text :=
  (events.filter fun e => (level e).admits e.level).flatMap Event.line

/-- The report of the failure that a run ends with, empty if it ends well. -/
def Report.ending (report : Report) : Text :=
  match report.result with
  | .ok _ => []
  | .error failure => failure.report

/-- What a run reports: the events that the level in force admits, and at the end a failure. -/
theorem errors_outcome {setting? : Option Text} {filter : Filter}
    (hfilter : filterInForce? options setting? = some filter) (report : Report) :
    (report.outcome filter).errors =
      shownAt (levelInForce options setting?) report.events ++ report.ending := by
  have hshown : shown filter report.events =
      shownAt (levelInForce options setting?) report.events := by
    rw [← funext (threshold_filterInForce hfilter)]
    rfl
  rw [← hshown, Report.outcome, Report.ending]
  cases report.result with
  | ok output => exact (List.append_nil _).symm
  | error failure => rfl

/-- The line of an event ends where a line of text ends. -/
theorem exists_splitOn_line (e : Event) :
    ∃ lines, ∀ rest, (e.line ++ rest).splitOn '\n' = lines ++ rest.splitOn '\n' := by
  obtain ⟨body, hbody⟩ : ∃ body, e.line = body ++ ['\n'] := ⟨_, rfl⟩
  refine ⟨body.splitOn '\n', fun rest => ?_⟩
  rw [hbody, List.append_assoc]
  exact List.splitOnP_append_cons body rest rfl

/-- Fewer events have fewer lines, in the same order. -/
theorem sublist_splitOn_flatMap_line {events events' : List Event} (h : events'.Sublist events)
    (rest : Text) :
    ((events'.flatMap Event.line ++ rest).splitOn '\n').Sublist
      ((events.flatMap Event.line ++ rest).splitOn '\n') := by
  induction h with
  | slnil => exact .refl _
  | cons e _ ih =>
    obtain ⟨lines, hlines⟩ := exists_splitOn_line e
    rw [List.flatMap_cons, List.append_assoc, hlines]
    exact ih.trans (List.sublist_append_right lines _)
  | cons_cons e _ ih =>
    obtain ⟨lines, hlines⟩ := exists_splitOn_line e
    rw [List.flatMap_cons, List.flatMap_cons, List.append_assoc, List.append_assoc, hlines, hlines]
    exact ih.append_left lines

/-- A level that is at least as talkative for all of some events shows at least the same lines. -/
theorem sublist_splitOn_shownAt {level level' : Event → Threshold} {events : List Event}
    (h : ∀ e ∈ events, (level' e).rank ≤ (level e).rank) (rest : Text) :
    ((shownAt level' events ++ rest).splitOn '\n').Sublist
      ((shownAt level events ++ rest).splitOn '\n') := by
  refine sublist_splitOn_flatMap_line ?_ rest
  have hboth : events.filter (fun e => (level' e).admits e.level) =
      (events.filter fun e => (level e).admits e.level).filter fun e =>
        (level' e).admits e.level := by
    rw [List.filter_filter]
    apply List.filter_congr
    intro e he
    rw [Bool.eq_iff_iff, Bool.and_eq_true_iff, iff_self_and, Threshold.admits_iff,
      Threshold.admits_iff]
    intro hshown
    exact Nat.le_trans hshown (h e he)
  rw [hboth]
  exact List.filter_sublist

/-! ## Whole runs -/

/-- The flags of verbosity have no part in what a run does. -/
theorem runWith_verbosity (options : Options) (verbose quiet : Bool) (input : ByteArray)
    (tree : FileTree) :
    runWith { options with verbose, quiet } input tree = runWith options input tree := rfl

/-- **Verbosity never affects results.** Two runs whose arguments ask for the same but for the flags
of verbosity, under any log settings such that both get past them or neither does, end with the same
exit code and the same output, and leave the same tree. If they do get past them, each reports the
events of one and the same run that its level in force admits, and then the failure that this run
ends with, if it does. And if the first is at least as talkative as the second, the lines of the
second are among those of the first, in the same order. -/
theorem run_verbosity (h : parse arguments = .ok (.run options))
    (h' : parse arguments' = .ok (.run options'))
    (hoptions : { options' with verbose := options.verbose, quiet := options.quiet } = options)
    {setting? setting'? : Option Text}
    (hsettings : Starts options setting? ↔ Starts options' setting'?) (input : ByteArray)
    (tree : FileTree) :
    let report := runWith options input tree
    let level := levelInForce options setting?
    let level' := levelInForce options' setting'?
    let outcome := run arguments setting? input tree
    let outcome' := run arguments' setting'? input tree
    (outcome.exitCode = outcome'.exitCode ∧ outcome.output = outcome'.output ∧
      outcome.tree = outcome'.tree) ∧
    (Starts options setting? →
      (outcome.errors = shownAt level report.events ++ report.ending ∧
        outcome'.errors = shownAt level' report.events ++ report.ending) ∧
      ((∀ e ∈ report.events, (level' e).rank ≤ (level e).rank) →
        (outcome'.errors.splitOn '\n').Sublist (outcome.errors.splitOn '\n'))) := by
  intro report level level' outcome outcome'
  have hreport : runWith options' input tree = report := by
    rw [← runWith_verbosity options' options.verbose options.quiet, hoptions]
  refine ⟨?_, fun hstarts => ?_⟩
  · have hsame : SameEnd report (runWith options' input tree) := by
      rw [hreport]
      exact ⟨rfl, rfl⟩
    exact hsame.run h h' hsettings
  · obtain ⟨filter, hfilter⟩ := hstarts
    obtain ⟨filter', hfilter'⟩ := hsettings.mp ⟨filter, hfilter⟩
    have herrors : outcome.errors = shownAt level report.events ++ report.ending := by
      rw [← errors_outcome hfilter, ← run_eq_outcome h hfilter]
    have herrors' : outcome'.errors = shownAt level' report.events ++ report.ending := by
      rw [← errors_outcome hfilter', ← hreport, ← run_eq_outcome h' hfilter']
    refine ⟨⟨herrors, herrors'⟩, fun hlevel => ?_⟩
    rw [herrors, herrors']
    exact sublist_splitOn_shownAt hlevel report.ending

/-- Arguments for a run that finds nothing for a pattern, and then fails at one that is none. -/
def badPatternArguments : List Text :=
  ["-o".toList, "out".toList, "none".toList, "b[".toList]

def badPatternOptions : Options where
  files := ["none".toList, "b[".toList]
  output? := some ⟨"out".toList⟩
  format := "json".toList
  marker := '#'
  block := false
  verbose := false
  quiet := false

theorem ofSetting_warn : Filter.ofSetting "warn".toList = .ok [⟨.everything, some .warn⟩] := by
  decide +kernel

theorem levelInForce_badPattern (e : Event) :
    levelInForce badPatternOptions (some "warn".toList) e = some .warn := by
  simp only [levelInForce, badPatternOptions, Option.map_some, ofSetting_warn, Bool.false_eq_true,
    ↓reduceIte, Filter.threshold_everything]

/-- A log setting shows one warning more than the flag for errors only, in front of the same report
of the failure. -/
theorem run_verbosity_badPattern :
    let outcome := run badPatternArguments (some "warn".toList) .empty ⟨[], []⟩
    let outcome' := run ("-q".toList :: badPatternArguments) none .empty ⟨[], []⟩
    outcome.exitCode = outcome'.exitCode ∧ outcome.tree = outcome'.tree ∧
      (outcome'.errors.splitOn '\n').Sublist (outcome.errors.splitOn '\n') ∧
      outcome.errors = " WARN no files matched: none\n".toList ++ outcome'.errors := by
  have h : parse badPatternArguments = .ok (.run badPatternOptions) := by rfl
  have h' : parse ("-q".toList :: badPatternArguments) =
      .ok (.run { badPatternOptions with quiet := true }) := by rfl
  have hstarts : Starts badPatternOptions (some "warn".toList) := by
    refine starts_of_trimStart fun setting hsetting => ?_
    obtain rfl := Option.some.inj hsetting
    decide
  have hstarts' : Starts { badPatternOptions with quiet := true } none := ⟨_, rfl⟩
  obtain ⟨⟨hexit, -, htree⟩, hreported⟩ :=
    run_verbosity h h' rfl (iff_of_true hstarts hstarts') .empty ⟨[], []⟩
  obtain ⟨-, hlines⟩ := hreported hstarts
  refine ⟨hexit, htree, hlines fun e _ => ?_, by decide +kernel⟩
  rw [levelInForce_badPattern]
  exact Nat.le_succ 1

/-- A log setting that lets all events be shown that have a field, and no others. -/
def fieldSetting : Text :=
  "doxysh[\x7bfunctions\x7d]=debug".toList

/-- Two runs that only differ in their log settings, of which the one with the more talkative level
does not show a warning of the other; and two runs that only differ in a flag, of which one ends with
an exit code of its own since the reader of its log setting breaks off. -/
theorem run_verbosity_apart :
    (Filter.ofSetting fieldSetting =
        .ok [⟨⟨some "doxysh".toList, none, some ⟨"functions".toList, none⟩⟩, some .debug⟩] ∧
      ¬ ((run badPatternArguments none .empty ⟨[], []⟩).errors.splitOn '\n').Sublist
        ((run badPatternArguments (some fieldSetting) .empty ⟨[], []⟩).errors.splitOn '\n')) ∧
    (run [] (some Filter.brokenSetting) .empty ⟨[], []⟩).exitCode = 101 ∧
      (run ["-v".toList] (some Filter.brokenSetting) .empty ⟨[], []⟩).exitCode = 0 := by
  refine ⟨⟨by decide +kernel, by decide +kernel⟩, by decide +kernel, by decide +kernel⟩

end CommandLine

end ShellDoc
