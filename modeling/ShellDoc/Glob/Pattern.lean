import ShellDoc.Path

/-!
# Glob patterns

A pattern is a path with wildcards in its names:

* `?` stands for any one character, and `*` for any number of them;
* `[ab0-9]` stands for one character of the class, `[!ab0-9]` for one that is not in it. The first
  character of a class is never its end, so that `[]]` holds the closing bracket. A hyphen between
  two characters makes a range of code points, elsewhere it stands for itself;
* `**` stands for any number of directories, one below the other. It must be a whole part of the
  path.

All other characters stand for themselves, braces and backslashes too.

**Reading.** The whole pattern is read first, then each of its parts between slashes on its own.
Most errors show in the first reading. A class that spans a slash is complete there and broken in
the second, and then the position counts from the start of the part.

The program leaves patterns to a library, which is not among its own sources. What stands here are
the rules of that library. Assumed of it are the syntax of patterns, the errors with their places,
and which names a pattern covers.
-/

namespace ShellDoc.Glob

/-- A member of a class: one character, or all from one code point to another. -/
inductive ClassMember where
  | single (c : Char)
  | range (first last : Char)
deriving DecidableEq, Repr

/-- Whether a member of a class covers a character. -/
def ClassMember.covers (c : Char) : ClassMember → Bool
  | .single d => c == d
  | .range first last => first.toNat ≤ c.toNat && c.toNat ≤ last.toNat

/-- A token of a pattern. -/
inductive Token where
  | char (c : Char)
  | anyChar
  | anySequence
  | oneOf (members : List ClassMember)
  | noneOf (members : List ClassMember)
  | anyDepth
deriving DecidableEq, Repr

/-- What is wrong with a pattern. -/
inductive PatternFault where
  | tooManyStars
  | depthNotAlone
  | brokenClass
deriving DecidableEq, Repr

/-- An error in a pattern, with the number of characters before the place that it is about. -/
structure PatternError where
  position : Nat
  fault : PatternFault
deriving DecidableEq, Repr

/-- The words in which a fault is reported. -/
def PatternFault.message : PatternFault → Text
  | .tooManyStars => "wildcards are either regular \x60*\x60 or recursive \x60**\x60".toList
  | .depthNotAlone => "recursive wildcards must form a single path component".toList
  | .brokenClass => "invalid range pattern".toList

/-- The words in which an error is reported. -/
def PatternError.message (e : PatternError) : Text :=
  "Pattern syntax error near position ".toList ++ .ofNat e.position ++ ": ".toList ++
    e.fault.message

/-- The members that the inside of a class lists. -/
def classMembers : Text → List ClassMember
  | first :: '-' :: last :: rest => .range first last :: classMembers rest
  | c :: rest => .single c :: classMembers rest
  | [] => []

/-- Splits behind the bracket that ends a class, which its first character never is: the inside of
the class, and what follows it. -/
def splitClass? : Text → Option (Text × Text)
  | [] => none
  | c :: rest =>
    match rest.dropWhile (· != ']') with
    | [] => none
    | _ :: behind => some (c :: rest.takeWhile (· != ']'), behind)

theorem length_splitClass?_lt {t inside behind : Text} (h : splitClass? t = some (inside, behind)) :
    behind.length < t.length := by
  match t with
  | [] => simp [splitClass?] at h
  | c :: rest =>
    simp only [splitClass?] at h
    split at h
    · simp at h
    next d tail heq =>
      have shorter : (rest.dropWhile (· != ']')).length ≤ rest.length :=
        (List.dropWhile_sublist _).length_le
      simp_all
      omega

/-- Reads a class behind its opening bracket: its token, and what follows it. -/
def readClass? (t : Text) : Option (Token × Text) :=
  match t with
  | '!' :: t =>
    (splitClass? t).map fun (inside, behind) => (.noneOf (classMembers inside), behind)
  | _ => (splitClass? t).map fun (inside, behind) => (.oneOf (classMembers inside), behind)

theorem length_readClass?_lt {t rest : Text} {token : Token}
    (h : readClass? t = some (token, rest)) : rest.length < t.length := by
  unfold readClass? at h
  split at h
  next inside =>
    obtain ⟨⟨members, behind⟩, found, equal⟩ := Option.map_eq_some_iff.1 h
    have shorter := length_splitClass?_lt found
    obtain ⟨-, rfl⟩ := Prod.mk.inj equal
    exact Nat.lt_succ_of_lt shorter
  next =>
    obtain ⟨⟨members, behind⟩, found, equal⟩ := Option.map_eq_some_iff.1 h
    have shorter := length_splitClass?_lt found
    obtain ⟨-, rfl⟩ := Prod.mk.inj equal
    exact shorter

/-- Reads a run of stars that follows `before?`: its token, and what follows it. A run of two takes
the slash behind it along. -/
def readStars (position : Nat) (before? : Option Char) (stars : Nat) (rest : Text) :
    Except PatternError (Token × Text) :=
  if stars = 1 then .ok (.anySequence, rest)
  else if stars ≠ 2 then .error ⟨position + 2, .tooManyStars⟩
  else if before? ≠ none ∧ before? ≠ some '/' then .error ⟨position - 1, .depthNotAlone⟩
  else
    match rest with
    | [] => .ok (.anyDepth, [])
    | '/' :: rest => .ok (.anyDepth, rest)
    | _ => .error ⟨position + 2, .depthNotAlone⟩

theorem length_readStars_le {position stars : Nat} {before? : Option Char} {t rest : Text}
    {token : Token} (h : readStars position before? stars t = .ok (token, rest)) :
    rest.length ≤ t.length := by
  unfold readStars at h
  split at h
  · simp_all
  split at h
  · simp at h
  split at h
  · simp at h
  split at h <;> simp_all

/-- Reads the tokens of a text that follows `before?` in a pattern of `length` characters. -/
def readTokens (length : Nat) (before? : Option Char) (t : Text) :
    Except PatternError (List Token) :=
  match t with
  | [] => .ok []
  | '?' :: rest => (.anyChar :: ·) <$> readTokens length (some '?') rest
  | '*' :: rest =>
    match _h : readStars (length - t.length) before? (1 + (rest.takeWhile (· == '*')).length)
        (rest.dropWhile (· == '*')) with
    | .error e => .error e
    | .ok (token, behind) =>
      (token :: ·) <$> readTokens length (some (if token = .anyDepth then '/' else '*')) behind
  | '[' :: rest =>
    match _h : readClass? rest with
    | none => .error ⟨length - t.length, .brokenClass⟩
    | some (token, behind) => (token :: ·) <$> readTokens length (some ']') behind
  | c :: rest => (.char c :: ·) <$> readTokens length (some c) rest
termination_by t.length
decreasing_by
  · simp
  · have shorter := length_readStars_le _h
    have : (rest.dropWhile (· == '*')).length ≤ rest.length := (List.dropWhile_sublist _).length_le
    simp
    omega
  · have := length_readClass?_lt _h
    simp
    omega
  · simp

/-- The tokens of a text that stands on its own. -/
def tokens (t : Text) : Except PatternError (List Token) :=
  readTokens t.length none t

/-- A part of a pattern, for one step down a file tree: a name given in full, a name with wildcards,
or any number of directories. -/
inductive Part where
  | literal (name : Text)
  | wild (tokens : List Token)
  | anyDepth
deriving DecidableEq, Repr

/-- The character that a token stands for on its own. -/
def Token.char? : Token → Option Char
  | .char c => some c
  | _ => none

/-- The part with the given tokens. -/
def Part.ofTokens (tokens : List Token) : Part :=
  if .anyDepth ∈ tokens then .anyDepth
  else
    match tokens.mapM Token.char? with
    | some name => .literal name
    | none => .wild tokens

/-- Whether a token covers a character. Sequences are not tokens for one character. -/
def Token.covers (c : Char) : Token → Bool
  | .char d => c == d
  | .anyChar => true
  | .oneOf members => members.any (·.covers c)
  | .noneOf members => !members.any (·.covers c)
  | .anySequence | .anyDepth => false

/-- What a token for one character leaves of a text that starts with one that it covers. -/
def Token.rest? (token : Token) : Text → Option Text
  | [] => none
  | c :: rest => if token.covers c then some rest else none

/-- A text and all that is left of it as characters go from its start, down to nothing. -/
def endings : Text → List Text
  | [] => [[]]
  | c :: rest => (c :: rest) :: endings rest

/-- What may be left of a text when tokens have taken characters from its start, given what may be
left before them. All that is given are ends of one text, the longest first; so is what is found.
A sequence leaves what it leaves of the longest. -/
def leftovers : List Token → List Text → List Text
  | [], rests => rests
  | .anySequence :: tokens, rests => leftovers tokens (rests.head?.elim [] endings)
  | token :: tokens, rests => leftovers tokens (rests.filterMap token.rest?)

/-- Whether a name is covered by tokens from its start to its end. -/
def covers (tokens : List Token) (name : Text) : Bool :=
  (leftovers tokens [name]).any List.isEmpty

/-- Whether a part covers the name of a file or directory. -/
def Part.covers (name : Text) : Part → Bool
  | .literal text => text == name
  | .wild tokens => Glob.covers tokens name
  | .anyDepth => false

/-- A pattern: where it starts, its parts, and whether it stands for directories only, which a slash
at its end says. Of several parts for any number of directories in a row one is kept. -/
structure Pattern where
  isAbsolute : Bool
  parts : List Part
  directoriesOnly : Bool
deriving DecidableEq, Repr

/-- Leaves one of several neighbouring parts for any number of directories. -/
def mergeDepths : List Part → List Part
  | .anyDepth :: .anyDepth :: parts => mergeDepths (.anyDepth :: parts)
  | part :: parts => part :: mergeDepths parts
  | [] => []

/-- The texts of the parts of a path: the pieces between its slashes, but for an empty piece at the
end. A path with nothing in it has one empty part. -/
def partTexts (relative : Text) : List Text :=
  let pieces := relative.splitOn '/'
  if relative = [] then [[]]
  else if pieces.getLast? = some [] then pieces.dropLast
  else pieces

/-- Reads a pattern. -/
def Pattern.ofText (t : Text) : Except PatternError Pattern := do
  let _ ← tokens t
  let path : Path := ⟨t⟩
  let parts ← (partTexts (if path.isAbsolute then t.tail else t)).mapM tokens
  return ⟨path.isAbsolute, mergeDepths (parts.map Part.ofTokens), t.getLast? == some '/'⟩

end ShellDoc.Glob
