import ShellDoc.Log.Filter
import ShellDoc.Proofs.Except
import ShellDoc.Proofs.FileTree.Entry
import ShellDoc.Proofs.Text

/-!
# Log settings that are read to the end

The reader of log settings finds the places of the pieces in a directive without the space around
it, and cuts at the same places in the directive with the space. Space behind a directive does not
move the places, so a directive without space in front of it is cut where its pieces are
(`piece_eq_ok`), and a setting of such directives is read to the end (`ofSetting_ne_brokenOff`).

Behind space a cut may fall inside a character, and then the reader breaks off
(`ofSetting_brokenSetting`).
-/

namespace ShellDoc

theorem Text.splitBytes?_append (front rest : Text) :
    splitBytes? (utf8Size front) (front ++ rest) = some (front, rest) := by
  induction front with
  | nil =>
    rw [utf8Size, List.foldl_nil, List.nil_append, splitBytes?]
  | cons c front ih =>
    have hsize : utf8Size (c :: front) = c.utf8Size + utf8Size front := by
      rw [← List.singleton_append, FileTree.utf8Size_append]
      exact congrArg (· + utf8Size front) (Nat.zero_add _)
    obtain ⟨n, hn⟩ := Nat.exists_eq_add_one_of_ne_zero
      (Nat.ne_of_gt (Nat.add_pos_left c.utf8Size_pos (utf8Size front)))
    rw [hsize, hn, List.cons_append, splitBytes?, if_pos (hn ▸ Nat.le_add_right _ _), ← hn,
      Nat.add_sub_cancel_left, ih]
    rfl

namespace Directive

variable {α β : Type} {t : Text}

/-! ## Pieces -/

/-- A text without space in front, in two parts of what is left without the space behind it. -/
theorem splitAt_eq_ok (hspace : Text.trimStart t = t) {front follows : Text}
    (h : front ++ follows = Text.trim t) : ∃ behind, splitAt t follows = .ok (front, behind) := by
  obtain ⟨space, ht⟩ : Text.trim t <+: t := by
    rw [Text.trim, hspace]
    exact Text.trimEnd_isPrefix t
  have hplace : utf8Size (Text.trim t) - utf8Size follows = utf8Size front := by
    rw [← h, FileTree.utf8Size_append, Nat.add_sub_cancel]
  have hsplit : Text.splitBytes? (utf8Size front) t = some (front, follows ++ space) := by
    rw [← ht, ← h, List.append_assoc, Text.splitBytes?_append]
  exact ⟨follows ++ space, by rw [splitAt, hplace, hsplit]⟩

/-- Without space in front of the directive, a piece is what stands between the two places. -/
theorem piece_eq_ok (hspace : Text.trimStart t = t) {inside stop : Text}
    (h : inside ++ stop <:+ Text.trim t) : piece t (inside ++ stop) stop = .ok inside := by
  obtain ⟨front, hfront⟩ := h
  obtain ⟨_, hsplit⟩ := splitAt_eq_ok hspace ((List.append_assoc front inside stop).trans hfront)
  have hplace : utf8Size (Text.trim t) - utf8Size (inside ++ stop) = utf8Size front := by
    rw [← hfront, FileTree.utf8Size_append, Nat.add_sub_cancel]
  rw [piece, hsplit]
  dsimp only [bind, Except.bind]
  rw [hplace, Text.splitBytes?_append]
  rfl

/-- Such a piece ends where the first character stands that ends it. -/
theorem piece_takeWhile (hspace : Text.trimStart t = t) {start stop : Text} {p : Char → Bool}
    (hstart : start <:+ Text.trim t) (hstop : start.dropWhile p = stop) :
    piece t start stop = .ok (start.takeWhile p) := by
  have hpieces : start.takeWhile p ++ stop = start := by
    rw [← hstop]
    exact List.takeWhile_append_dropWhile
  have hpiece := piece_eq_ok hspace (hpieces.symm ▸ hstart)
  rwa [hpieces] at hpiece

theorem lastPiece_ne_brokenOff (hspace : Text.trimStart t = t) {start : Text}
    (hstart : start <:+ Text.trim t) : lastPiece t start ≠ .error .brokenOff := by
  obtain ⟨front, hfront⟩ := hstart
  obtain ⟨_, hsplit⟩ := splitAt_eq_ok hspace hfront
  rw [lastPiece, hsplit]
  exact nofun

/-! ## Readers -/

/-- Whether a reader of a directive does not break off, and leaves an end of the directive. -/
structure ReadsWithin (t : Text) (r : Except Fault (α × Text)) : Prop where
  unbroken : r ≠ .error .brokenOff
  rest : ∀ a rest, r = .ok (a, rest) → rest <:+ Text.trim t

theorem readsWithin_unreadable : ReadsWithin t (.error .unreadable : Except Fault (α × Text)) :=
  ⟨nofun, nofun⟩

theorem readsWithin_ok {a : α} {rest : Text} (h : rest <:+ Text.trim t) :
    ReadsWithin t (.ok (a, rest)) := by
  refine ⟨nofun, fun _ _ heq => ?_⟩
  cases heq
  exact h

theorem ReadsWithin.bind {r : Except Fault (α × Text)} (h : ReadsWithin t r)
    {f : α × Text → Except Fault (β × Text)}
    (hf : ∀ a rest, rest <:+ Text.trim t → ReadsWithin t (f (a, rest))) :
    ReadsWithin t (r >>= f) := by
  cases r with
  | error fault => exact ⟨fun heq => h.unbroken (by cases heq; rfl), nofun⟩
  | ok pair => exact hf pair.1 pair.2 (h.rest _ _ rfl)

theorem readsWithin_readField (hspace : Text.trimStart t = t) {field : Text}
    (hfield : field <:+ Text.trim t) : ReadsWithin t (readField t field) := by
  rw [readField]
  split
  next => exact readsWithin_unreadable
  next closing behind hstop =>
    have hbehind : closing :: behind <:+ Text.trim t :=
      (hstop ▸ List.dropWhile_suffix _).trans hfield
    rw [piece_takeWhile hspace hfield hstop]
    dsimp only [bind, Except.bind]
    split
    next pattern rest _ =>
      exact readsWithin_ok
        (((List.suffix_cons _ rest).trans (List.suffix_cons _ _)).trans hbehind)
    next => exact readsWithin_unreadable

theorem readsWithin_readBracket (hspace : Text.trimStart t = t) (target? : Option Text)
    {inside : Text} (hinside : inside <:+ Text.trim t) :
    ReadsWithin t (readBracket t target? inside) := by
  rw [readBracket]
  split
  next => exact readsWithin_unreadable
  next closing behind hstop =>
    have hbehind : behind <:+ Text.trim t :=
      ((List.suffix_cons closing behind).trans (hstop ▸ List.dropWhile_suffix _)).trans hinside
    rw [piece_takeWhile hspace hinside hstop]
    dsimp only [bind, Except.bind]
    split
    next => exact readsWithin_ok hbehind
    next =>
      exact (readsWithin_readField hspace hbehind).bind fun _ _ hrest => readsWithin_ok hrest

theorem readsWithin_readScope (hspace : Text.trimStart t = t) :
    ReadsWithin t (readScope t) := by
  rw [readScope]
  split
  next => exact readsWithin_ok List.nil_suffix
  next inside hstop =>
    have hinside : inside <:+ Text.trim t :=
      (List.suffix_cons _ inside).trans (hstop ▸ List.dropWhile_suffix _)
    rw [piece_takeWhile hspace List.suffix_rfl hstop]
    refine (readsWithin_readBracket hspace _ hinside).bind fun scope rest hrest => ?_
    dsimp only
    split
    next => exact readsWithin_ok hrest
    next => exact readsWithin_unreadable
  next =>
    rw [piece_takeWhile hspace List.suffix_rfl rfl]
    exact readsWithin_ok (List.dropWhile_suffix _)

theorem readLevel_ne_brokenOff (hspace : Text.trimStart t = t) {rest : Text}
    (hrest : rest <:+ Text.trim t) : readLevel t rest ≠ .error .brokenOff := by
  intro hbroken
  cases rest with
  | nil => cases hbroken
  | cons equals level =>
    have hlast := lastPiece_ne_brokenOff hspace ((List.suffix_cons equals level).trans hrest)
    rw [readLevel] at hbroken
    cases hlevel : lastPiece t level with
    | error fault =>
      rw [hlevel] at hbroken
      cases hbroken
      exact hlast hlevel
    | ok level =>
      rw [hlevel] at hbroken
      dsimp only [bind, Except.bind] at hbroken
      split at hbroken
      next => cases hbroken
      next =>
        split at hbroken
        next => cases hbroken
        next => cases hbroken

/-- The reader does not break off at a directive without space in front of it. -/
theorem ofText_ne_brokenOff (hspace : Text.trimStart t = t) : ofText t ≠ .error .brokenOff := by
  rw [ofText]
  split
  next =>
    split
    next => exact nofun
    next =>
      have hscope := readsWithin_readScope hspace
      cases hread : readScope t with
      | error fault => exact fun heq => hscope.unbroken (by cases heq; exact hread)
      | ok pair =>
        have hlevel := readLevel_ne_brokenOff hspace (hscope.rest pair.1 pair.2 hread)
        dsimp only [bind, Except.bind]
        cases hthreshold : readLevel t pair.2 with
        | error fault => exact fun heq => hlevel (by cases heq; exact hthreshold)
        | ok threshold => exact nofun
  next => exact nofun

end Directive

namespace Filter

variable {setting : Text}

/-- The fault of a setting is that of one of its directives. -/
theorem exists_ofText_eq_error {fault : Directive.Fault} {items : List Text}
    (h : items.mapM Directive.ofText = .error fault) :
    ∃ item ∈ items, Directive.ofText item = .error fault := by
  induction items with
  | nil => cases h
  | cons item rest ih =>
    rw [List.mapM_cons] at h
    cases hitem : Directive.ofText item with
    | error other =>
      rw [hitem] at h
      cases h
      exact ⟨item, List.mem_cons_self, hitem⟩
    | ok d =>
      rw [hitem] at h
      cases hrest : rest.mapM Directive.ofText with
      | error other =>
        rw [hrest] at h
        cases h
        obtain ⟨item, hmem, hfault⟩ := ih hrest
        exact ⟨item, List.mem_cons_of_mem _ hmem, hfault⟩
      | ok ds =>
        rw [hrest] at h
        cases h

/-- **The reader breaks off only behind space**: a setting none of whose directives has space in
front of it is read to the end. -/
theorem ofSetting_ne_brokenOff
    (hspace : ∀ item ∈ setting.splitOn ',', Text.trimStart item = item) :
    ofSetting setting ≠ .error .brokenOff := by
  intro h
  rw [ofSetting] at h
  cases hitems : ((setting.splitOn ',').filter (· ≠ [])).mapM Directive.ofText with
  | error fault =>
    rw [hitems] at h
    cases h
    obtain ⟨item, hmem, hfault⟩ := exists_ofText_eq_error hitems
    exact Directive.ofText_ne_brokenOff (hspace item (List.mem_filter.mp hmem).1) hfault
  | ok ds =>
    rw [hitems] at h
    cases h

/-- A log setting at which its reader breaks off: the name in it is taken from behind the space in
front, and would end inside its only character. -/
def brokenSetting : Text :=
  " é=info".toList

theorem ofSetting_brokenSetting : ofSetting brokenSetting = .error .brokenOff := by
  decide +kernel

end Filter

end ShellDoc
