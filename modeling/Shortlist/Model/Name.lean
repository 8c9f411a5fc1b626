import Shortlist.Text.Letter

/-!
# Names of types

The base name of a type is what stands after the last `::` or backslash of its name.
`snakeCase` turns a camel-case name into a snake-case one: an underscore goes before every
capital that follows a word character, and everything is put in lower case.
-/

namespace Shortlist

/-- Walks over a text, keeping the part after the last separator seen. -/
def afterLastSeparator (best : List Char) : List Char → List Char
  | ':' :: ':' :: cs => afterLastSeparator cs (':' :: cs)
  | '\\' :: cs => afterLastSeparator cs cs
  | _ :: cs => afterLastSeparator best cs
  | [] => best

/-- The part of a name after its last `::` or backslash, all of it when it has neither. -/
def baseName (s : String) : String :=
  String.ofList (afterLastSeparator s.toList s.toList)

/-- Snake case after a character that is part of a word when `inWord` holds. -/
def snakeCaseFrom (inWord : Bool) : List Char → List Char
  | [] => []
  | c :: cs =>
    let rest := Text.lower c ++ snakeCaseFrom (Text.isAlphanumeric c || c == '_') cs
    if Text.isUpper c && inWord then '_' :: rest else rest

/-- The snake-case form of a camel-case name. -/
def snakeCase (s : String) : String :=
  String.ofList (snakeCaseFrom false s.toList)

end Shortlist
