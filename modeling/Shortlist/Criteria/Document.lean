import Shortlist.Criteria.Options
import Shortlist.Json.Reader
import Shortlist.Toml.Reader

/-!
# Criteria from documents

Criteria are read from the text of a JSON or a TOML document by way of its tree.
-/

namespace Shortlist

/-- The tree of a JSON document. -/
def Json.parse (s : String) : Except Error Json :=
  match Json.read? s with
  | some j => .ok j
  | none => .error (.option "$" .badJson)

/-- The tree of a TOML document. -/
def Toml.parse (s : String) : Except Error Json :=
  match Toml.read? s with
  | some j => .ok j
  | none => .error (.option "$" .badToml)

namespace Criteria

/-- Reads criteria from a JSON document. -/
def ofJsonText (s : String) : Except Error Criteria :=
  (Json.parse s).bind ofOptions

/-- Reads criteria from a TOML document. -/
def ofTomlText (s : String) : Except Error Criteria :=
  (Toml.parse s).bind ofOptions

end Criteria

end Shortlist
