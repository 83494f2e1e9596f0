import ShellDoc.Proofs.Script.Run
import Mathlib.Logic.Relation

/-!
# Layout

White space between the parts of a script says nothing to the reader. It may stand at both ends of a
line and behind the doubled marker of a documentation line, a carriage return may stand in front of
a line feed, and the last line may have a line feed behind it. Scripts that differ only in these
give the same functions (`functions_eq_of_sameLayout`).

None of the changes adds or removes a line that counts, so that each of them is a change within one
line (`exists_splitOn_around`), and there it is enough that the reader takes the line for the same
as before (`ReadsSame`). For a documentation line that is less than being equal when trimmed.
-/

namespace ShellDoc.Script

/-- White space that stays within a line. -/
def IsSpacing (spaces : Text) : Prop :=
  ∀ c ∈ spaces, Text.isSpace c = true ∧ c ≠ '\n'

/-- Whether a line starts behind a text. -/
def StartsLine (before : Text) : Prop :=
  ∀ c ∈ before.getLast?, c = '\n'

/-- Whether a line ends in front of a text. -/
def EndsLine (behind : Text) : Prop :=
  ∀ c ∈ behind.head?, c = '\n'

-- The instances name how they decide: by the elements, and not by going through all characters.
instance (spaces : Text) : Decidable (IsSpacing spaces) :=
  List.decidableBAll _ spaces

instance (before : Text) : Decidable (StartsLine before) :=
  Option.decidableForallMem before.getLast?

instance (behind : Text) : Decidable (EndsLine behind) :=
  Option.decidableForallMem behind.head?

/-- One more piece of white space in a script, where it is layout only. -/
inductive MoreSpaced (marker : Char) : Text → Text → Prop
  | startOfLine {before spaces behind : Text} : StartsLine before → IsSpacing spaces →
    MoreSpaced marker (before ++ behind) (before ++ (spaces ++ behind))
  | endOfLine {before spaces behind : Text} : EndsLine behind → IsSpacing spaces →
    MoreSpaced marker (before ++ behind) (before ++ (spaces ++ behind))
  /-- Behind the doubled marker, which is the first in its line but for white space. -/
  | behindMark {before indentation spaces behind : Text} : StartsLine before →
    IsSpacing indentation → IsSpacing spaces →
    MoreSpaced marker (before ++ (indentation ++ (Comment.docMark marker ++ behind)))
      (before ++ (indentation ++ (Comment.docMark marker ++ (spaces ++ behind))))
  | carriageReturn {before behind : Text} :
    MoreSpaced marker (before ++ '\n' :: behind) (before ++ '\r' :: '\n' :: behind)
  /-- Behind the last line. A carriage return in front of it comes with the rule before. -/
  | lastFeed {script : Text} : MoreSpaced marker script (script ++ ['\n'])

/-- Scripts that differ in their layout only: white space was put in and taken out any number of
times. -/
def SameLayout (marker : Char) : Text → Text → Prop :=
  Relation.EqvGen (MoreSpaced marker)

/-- Two trimmed lines that the reader takes for the same, whatever it has read before. -/
def ReadsSame (marker : Char) (line line' : Text) : Prop :=
  ∀ number (reading : Reading), reading.next marker number line = reading.next marker number line'

variable {marker : Char}

/-! ## A change within one line -/

theorem IsSpacing.isSpace {spaces : Text} (h : IsSpacing spaces) :
    ∀ c ∈ spaces, Text.isSpace c = true := by
  intro c hc
  exact (h c hc).1

theorem IsSpacing.not_mem {spaces : Text} (h : IsSpacing spaces) : '\n' ∉ spaces := by
  intro hmem
  exact (h '\n' hmem).2 rfl

theorem splitOn_concat_feed (t : Text) : (t ++ ['\n']).splitOn '\n' = t.splitOn '\n' ++ [[]] :=
  List.splitOnP_append_cons t [] rfl

theorem eq_nil_of_startsLine {before last : Text} {front : List Text} (h : StartsLine before)
    (hsplit : before.splitOn '\n' = front ++ [last]) : last = [] := by
  have hlast : (before.splitOn '\n').getLast? = some last := by
    rw [hsplit, List.getLast?_concat]
  rcases List.eq_nil_or_concat before with rfl | ⟨rest, c, rfl⟩
  · exact (Option.some.inj hlast).symm
  · rw [List.concat_eq_append] at h hlast
    rw [h c List.getLast?_concat, splitOn_concat_feed, List.getLast?_concat] at hlast
    exact (Option.some.inj hlast).symm

theorem eq_nil_of_endsLine {behind first : Text} {pieces : List Text} (h : EndsLine behind)
    (hsplit : behind.splitOn '\n' = first :: pieces) : first = [] := by
  cases behind with
  | nil => exact (List.cons.inj hsplit).1.symm
  | cons c rest =>
    rw [h c rfl, List.splitOn_cons_eq_if_modifyHead, if_pos (beq_self_eq_true _)] at hsplit
    exact (List.cons.inj hsplit).1.symm

/-- What stands between two parts of a script and is no line feed stands in one line, together with
the last of the line in front and the first of the line behind. -/
theorem exists_splitOn_around (before behind : Text) :
    ∃ front last first pieces, (StartsLine before → last = []) ∧ (EndsLine behind → first = []) ∧
      ∀ middle, '\n' ∉ middle →
        (before ++ (middle ++ behind)).splitOn '\n' =
          front ++ (last ++ (middle ++ first)) :: pieces := by
  obtain ⟨front, last, hbefore, hlast, happend⟩ := Text.exists_splitOn_append '\n' before
  obtain ⟨first, pieces, hbehind⟩ : ∃ first pieces, behind.splitOn '\n' = first :: pieces :=
    List.exists_cons_of_ne_nil (List.splitOn_ne_nil '\n' behind)
  refine ⟨front, last, first, pieces, fun h => eq_nil_of_startsLine h hbefore,
    fun h => eq_nil_of_endsLine h hbehind, fun middle hmiddle => ?_⟩
  rw [happend, Text.splitOn_append_of_not_mem hlast]
  exact Text.splitOn_append_of_not_mem hmiddle hbehind

/-- Scripts of which all lines are the same but one, which the reader takes for the same, give the
same functions. -/
theorem functions_eq_of_readsSame {script script' line line' : Text} {front pieces : List Text}
    (hsplit : script.splitOn '\n' = front ++ line :: pieces)
    (hsplit' : script'.splitOn '\n' = front ++ line' :: pieces)
    (h : ReadsSame marker line.trim line'.trim) :
    functions marker script = functions marker script' := by
  rw [functions, functions, functionsFrom_eq_closedBy, functionsFrom_eq_closedBy, hsplit, hsplit',
    List.map_append, List.map_append, closedBy_append, closedBy_append, List.map_cons,
    List.map_cons, closedBy, closedBy, h]

theorem readsSame_of_eq {line line' : Text} (h : line = line') : ReadsSame marker line line' := by
  intro number reading
  rw [h]

/-- A documentation line in a script gives what stands behind its doubled marker, trimmed. -/
theorem lineKind_indented (hspace : Text.isSpace marker = false) {indentation : Text}
    (hindentation : IsSpacing indentation) (rest : Text) :
    lineKind marker (indentation ++ (Comment.docMark marker ++ rest)).trim =
      .documentation rest.trim := by
  have htrim : (indentation ++ (Comment.docMark marker ++ rest)).trim =
      Comment.docMark marker ++ rest.trimEnd := by
    rw [Text.trim_spaces_append hindentation.isSpace, trim_docMark_append hspace]
  rw [lineKind_of_trim_eq htrim, Text.trimStart_trimEnd_eq_trim]

theorem readsSame_of_documentation {line line' text : Text}
    (h : lineKind marker line = .documentation text)
    (h' : lineKind marker line' = .documentation text) : ReadsSame marker line line' := by
  intro number reading
  rw [Reading.next, Reading.next, h, h']

/-- White space behind the doubled marker makes no difference to a line. If the marker is white
space itself, all of it is trimmed. -/
theorem readsSame_behindMark {indentation spaces : Text} (hindentation : IsSpacing indentation)
    (hspaces : IsSpacing spaces) (rest : Text) :
    ReadsSame marker (indentation ++ (Comment.docMark marker ++ rest)).trim
      (indentation ++ (Comment.docMark marker ++ (spaces ++ rest))).trim := by
  cases hspace : Text.isSpace marker with
  | false =>
    apply readsSame_of_documentation (lineKind_indented hspace hindentation rest)
    rw [lineKind_indented hspace hindentation, Text.trim_spaces_append hspaces.isSpace]
  | true =>
    have hmark : ∀ c ∈ Comment.docMark marker, Text.isSpace c = true := by
      intro c hc
      rw [mem_docMark_iff.mp hc]
      exact hspace
    apply readsSame_of_eq
    rw [Text.trim_spaces_append hindentation.isSpace, Text.trim_spaces_append hmark,
      Text.trim_spaces_append hindentation.isSpace, Text.trim_spaces_append hmark,
      Text.trim_spaces_append hspaces.isSpace]

/-! ## Changes of layout -/

theorem functions_startOfLine {before spaces : Text} (hbefore : StartsLine before)
    (hspaces : IsSpacing spaces) (behind : Text) :
    functions marker (before ++ behind) = functions marker (before ++ (spaces ++ behind)) := by
  obtain ⟨front, last, first, pieces, hlast, -, hsplit⟩ := exists_splitOn_around before behind
  refine functions_eq_of_readsSame (hsplit [] List.not_mem_nil) (hsplit spaces hspaces.not_mem) ?_
  apply readsSame_of_eq
  rw [hlast hbefore, List.nil_append, List.nil_append, List.nil_append,
    Text.trim_spaces_append hspaces.isSpace]

theorem functions_endOfLine {spaces behind : Text} (hbehind : EndsLine behind)
    (hspaces : IsSpacing spaces) (before : Text) :
    functions marker (before ++ behind) = functions marker (before ++ (spaces ++ behind)) := by
  obtain ⟨front, last, first, pieces, -, hfirst, hsplit⟩ := exists_splitOn_around before behind
  refine functions_eq_of_readsSame (hsplit [] List.not_mem_nil) (hsplit spaces hspaces.not_mem) ?_
  apply readsSame_of_eq
  rw [hfirst hbehind, List.append_nil, List.append_nil, List.append_nil,
    Text.trim_append_spaces hspaces.isSpace]

theorem functions_behindMark {before indentation spaces : Text} (hbefore : StartsLine before)
    (hindentation : IsSpacing indentation) (hspaces : IsSpacing spaces) (behind : Text) :
    functions marker (before ++ (indentation ++ (Comment.docMark marker ++ behind))) =
      functions marker
        (before ++ (indentation ++ (Comment.docMark marker ++ (spaces ++ behind)))) := by
  by_cases hfeed : marker = '\n'
  · -- Two line feeds are no mark: what stands behind them stands at the start of a line.
    have hstarts : StartsLine (before ++ (indentation ++ Comment.docMark marker)) := by
      intro c hc
      rw [List.getLast?_append, List.getLast?_append] at hc
      rw [← Option.some.inj hc, hfeed]
      rfl
    simpa only [List.append_assoc] using functions_startOfLine hstarts hspaces behind
  · obtain ⟨front, last, first, pieces, hlast, -, hsplit⟩ := exists_splitOn_around before behind
    have hmark : '\n' ∉ indentation ++ Comment.docMark marker := by
      rw [List.mem_append, mem_docMark_iff, not_or]
      exact ⟨hindentation.not_mem, fun heq => hfeed heq.symm⟩
    have hspaced : '\n' ∉ indentation ++ Comment.docMark marker ++ spaces := by
      rw [List.mem_append, not_or]
      exact ⟨hmark, hspaces.not_mem⟩
    have hline := hsplit _ hmark
    have hline' := hsplit _ hspaced
    simp only [hlast hbefore, List.nil_append, List.append_assoc] at hline hline'
    exact functions_eq_of_readsSame hline hline' (readsSame_behindMark hindentation hspaces first)

/-- A line feed behind the last line adds an empty line, which says nothing. -/
theorem functions_lastFeed (script : Text) :
    functions marker script = functions marker (script ++ ['\n']) := by
  have hempty : ∀ number reading, closedBy marker number reading [[]] = [] := by
    intro number reading
    obtain ⟨pending, current?⟩ := reading
    cases current? <;> rfl
  rw [functions, functions, functionsFrom_eq_closedBy, functionsFrom_eq_closedBy,
    splitOn_concat_feed, List.map_append, closedBy_append]
  have htrim : [[]].map Text.trim = [[]] := rfl
  rw [htrim, hempty, List.append_nil]

theorem functions_eq_of_moreSpaced {script script' : Text} (h : MoreSpaced marker script script') :
    functions marker script = functions marker script' := by
  cases h with
  | startOfLine hbefore hspaces => exact functions_startOfLine hbefore hspaces _
  | endOfLine hbehind hspaces => exact functions_endOfLine hbehind hspaces _
  | behindMark hbefore hindentation hspaces =>
    exact functions_behindMark hbefore hindentation hspaces _
  | @carriageReturn before behind =>
    have hspacing : IsSpacing ['\r'] := by decide
    have hends : EndsLine ('\n' :: behind) := by
      intro c hc
      exact (Option.some.inj hc).symm
    exact functions_endOfLine hends hspacing before
  | lastFeed => exact functions_lastFeed script

/-- **Layout makes no difference**: scripts that differ in it only give the same functions, with the
same names, numbers of header lines, bodies and metadata. -/
theorem functions_eq_of_sameLayout {script script' : Text} (h : SameLayout marker script script') :
    functions marker script = functions marker script' := by
  induction h with
  | rel _ _ hspaced => exact functions_eq_of_moreSpaced hspaced
  | refl _ => rfl
  | symm _ _ _ ih => exact ih.symm
  | trans _ _ _ _ _ hfirst hsecond => exact hfirst.trans hsecond

/-- A script with white space in front of a line of the body. -/
def indentedScript : Text :=
  "##@a b\nf()\x7b\n  x\n\x7d".toList

/-- The same script with other white space: behind the mark, behind the line of the body instead of
in front of it, and a last line feed. -/
def spacedScript : Text :=
  "##\u2003@a b\r\nf()\x7b\nx\u0085\n\x7d\n".toList

theorem functions_eq_of_sameLayout_spacedScript :
    SameLayout '#' indentedScript spacedScript ∧
      functions '#' indentedScript =
        [⟨['f'], 2, ['x'], some (.member ['a'] (.text ['b']) .empty)⟩] ∧
      functions '#' spacedScript = functions '#' indentedScript := by
  have hchanges : SameLayout '#' indentedScript spacedScript := by
    have hbare := @MoreSpaced.startOfLine '#' "##@a b\nf()\x7b\n".toList "  ".toList
      "x\n\x7d".toList (by decide) (by decide)
    have hmark := @MoreSpaced.behindMark '#' [] [] ['\u2003'] "@a b\nf()\x7b\nx\n\x7d".toList
      (by decide) (by decide) (by decide)
    have hreturn := @MoreSpaced.carriageReturn '#' "##\u2003@a b".toList
      "f()\x7b\nx\n\x7d".toList
    have hend := @MoreSpaced.endOfLine '#' "##\u2003@a b\r\nf()\x7b\nx".toList ['\u0085']
      "\n\x7d".toList (by decide) (by decide)
    have hlast := @MoreSpaced.lastFeed '#' "##\u2003@a b\r\nf()\x7b\nx\u0085\n\x7d".toList
    exact .trans _ _ _ (.symm _ _ (.rel _ _ hbare)) (.trans _ _ _ (.rel _ _ hmark)
      (.trans _ _ _ (.rel _ _ hreturn) (.trans _ _ _ (.rel _ _ hend) (.rel _ _ hlast))))
  refine ⟨hchanges, by decide +kernel, ?_⟩
  exact (functions_eq_of_sameLayout hchanges).symm

end ShellDoc.Script
