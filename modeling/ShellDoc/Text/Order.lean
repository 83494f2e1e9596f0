import ShellDoc.Text

/-!
# The order of texts

Texts are ordered by the code points of their characters, and lists of texts by their members, in
both cases by the first difference; a beginning comes before the whole.
-/

namespace ShellDoc

/-- Whether a list comes before another: at their first difference its member comes before the
other's, or the list ends there. -/
def listBefore {α : Type} (before : α → α → Bool) : List α → List α → Bool
  | _, [] => false
  | [], _ :: _ => true
  | a :: as, b :: bs => before a b || (!before b a && listBefore before as bs)

namespace Text

/-- Whether a character has a smaller code point than another. -/
def charBefore (c d : Char) : Bool :=
  c.toNat < d.toNat

/-- Whether a text comes before another. -/
def before (t u : Text) : Bool :=
  listBefore charBefore t u

end Text

end ShellDoc
