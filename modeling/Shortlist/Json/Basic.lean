import Shortlist.Keyed
import Shortlist.Number.Double
import Shortlist.Number.Whole

/-!
# Trees of raw options

`Json` is the tree that option documents are read into.  The members of an object keep
their order.  A number is whole or a double; a whole number may lie beyond the signed 64-bit
range, and `Number.toInt64?` says when it does not.
-/

namespace Shortlist

/-- A number of an option document. -/
inductive Json.Number where
  | whole (n : Int)
  | real (x : Float)

/-- A tree of raw options. -/
inductive Json where
  | null
  | bool (b : Bool)
  | number (n : Json.Number)
  | string (s : String)
  | array (items : List Json)
  | object (members : List (String × Json))

namespace Json

/-- The number as a signed 64-bit integer, when it is whole and in range. -/
def Number.toInt64? : Number → Option Int64
  | .whole n => Shortlist.Number.toInt64? n
  | .real _ => none

/-- The double nearest to the number. -/
def Number.toFloat : Number → Float
  | .whole n =>
    let x := Shortlist.Number.nearest n.natAbs 1
    if n < 0 then -x else x
  | .real x => x

/-- The kind of a tree, with its article. -/
def kind : Json → String
  | .null => "null"
  | .bool _ => "a boolean"
  | .number _ => "a number"
  | .string _ => "a string"
  | .array _ => "a list"
  | .object _ => "an object"

/-- Whether the tree is null. -/
def isNull : Json → Bool
  | .null => true
  | _ => false

end Json

end Shortlist
