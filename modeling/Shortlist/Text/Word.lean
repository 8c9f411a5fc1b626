/-!
# Words and fragments

A word character is an ASCII letter, an ASCII digit or an underscore.  `occurs` finds a
fragment anywhere in a text, `occursAlone` finds it with no word character on either side.
-/

namespace Shortlist.Text

/-- ASCII letters, digits and the underscore. -/
def isWordChar (c : Char) : Bool :=
  c.isAlphanum || c == '_'

/-- Whether a text begins inside a word. -/
def startsInWord (cs : List Char) : Bool :=
  cs.head?.any isWordChar

/-- Whether the fragment stands anywhere in the text. -/
def occurs (fragment : List Char) : List Char → Bool
  | [] => fragment.isEmpty
  | c :: cs => fragment.isPrefixOf (c :: cs) || occurs fragment cs

/-- Whether the word stands in the text with no word character before or after it;
`inWord` says whether a word character precedes the text. -/
def occursAlone (word : List Char) (inWord : Bool) : List Char → Bool
  | [] => false
  | c :: cs =>
    (!inWord && word.isPrefixOf (c :: cs) && !startsInWord ((c :: cs).drop word.length))
      || occursAlone word (isWordChar c) cs

theorem occurs_iff (fragment cs : List Char) :
  occurs fragment cs = true ↔ fragment <:+: cs
  := by
  induction cs with
  | nil => simp [occurs]
  | cons c cs ih => simp [occurs, ih, List.infix_cons_iff]

end Shortlist.Text
