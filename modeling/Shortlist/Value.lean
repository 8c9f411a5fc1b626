import Shortlist.Json.Basic

/-!
# Values

A value is what a parameter is bound to or what a list of a statement holds.  An integer and
a double are never the same value; doubles compare as numbers, so the number that is no
number differs from itself and the two zeros are the same.
-/

namespace Shortlist

/-- A value of a parameter. -/
inductive Value where
  | null
  | bool (b : Bool)
  | int (n : Int64)
  | float (x : Float)
  | string (s : String)
  | array (items : List Value)

namespace Value

mutual

/-- Whether two values are the same. -/
def same : Value → Value → Bool
  | .null, .null => true
  | .bool b, .bool c => b == c
  | .int n, .int m => n == m
  | .float x, .float y => x == y
  | .string s, .string t => s == t
  | .array vs, .array ws => sameItems vs ws
  | _, _ => false

/-- Whether two lists hold the same values in the same places. -/
def sameItems : List Value → List Value → Bool
  | [], [] => true
  | v :: vs, w :: ws => same v w && sameItems vs ws
  | _, _ => false

end

instance : BEq Value where
  beq := same

/-- Whether the value is an array. -/
def isArray : Value → Bool
  | .array _ => true
  | _ => false

mutual

/-- The tree of a value.  A double that is not finite becomes null. -/
def toJson : Value → Json
  | .null => .null
  | .bool b => .bool b
  | .int n => .number (.whole n.toInt)
  | .float x => if Number.isFinite x then .number (.real x) else .null
  | .string s => .string s
  | .array vs => .array (itemsToJson vs)

/-- The trees of the values of an array. -/
def itemsToJson : List Value → List Json
  | [] => []
  | v :: vs => v.toJson :: itemsToJson vs

end

end Value

end Shortlist
