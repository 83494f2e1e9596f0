import ShellDoc.Text
import ShellDoc.Text.Alphanumeric
import ShellDoc.Text.LowercaseTable

/-!
# Lower-casing

A text is lower-cased character by character, by the full mapping of every script. Two characters
need more than the table of simple mappings. The capital I with a dot above becomes two characters.
A capital sigma becomes a final sigma at the end of a word and an ordinary one elsewhere; a word is
seen through the characters that casing ignores, such as apostrophes and accents.
-/

namespace ShellDoc.Text

/-- The code point that a run of capitals gives for one of its members. -/
def CapitalRun.lower? (run : CapitalRun) (code : Nat) : Option Nat :=
  if run.first ≤ code ∧ code ≤ run.last ∧ (code - run.first) % run.step = 0 then
    some (code + run.offset).toNat
  else
    none

/-- The simple lower-case form of a character, which is the character itself if it has no other. -/
def lowerChar (c : Char) : Char :=
  match capitalRuns.findSome? (·.lower? c.toNat) with
  | some code => Char.ofNat code
  | none => c

/-- Whether the first character that casing does not ignore has case. -/
def startsCased (t : Text) : Bool :=
  match t.dropWhile fun c => inIntervals caseIgnorableIntervals c.toNat with
  | [] => false
  | c :: _ => inIntervals casedIntervals c.toNat

/-- Lower-cases a text that stands after the characters `before`, the nearest of them first. -/
def lowercaseAfter (before : Text) : Text → Text
  | [] => []
  | c :: rest =>
    let lowered :=
      if c = 'Σ' then
        if startsCased before && !startsCased rest then ['ς'] else ['σ']
      else if c = 'İ' then
        ['i', '\u0307']
      else
        [lowerChar c]
    lowered ++ lowercaseAfter (c :: before) rest

/-- The text in lower case. -/
def lowercase (t : Text) : Text :=
  lowercaseAfter [] t

end ShellDoc.Text
