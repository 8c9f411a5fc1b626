/-!
# Quoted strings

A quoted string stands between single quotes, and a single quote inside it is written twice.
-/

namespace Shortlist.Text

/-- The single quote. -/
def quoteChar : Char := '\x27'

/-- The text with every single quote written twice. -/
def double : List Char → List Char
  | [] => []
  | c :: cs => if c = quoteChar then c :: c :: double cs else c :: double cs

/-- The text between single quotes, its own quotes written twice. -/
def quote (s : String) : String :=
  String.ofList (quoteChar :: (double s.toList ++ [quoteChar]))

end Shortlist.Text
