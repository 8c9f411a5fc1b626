import Shortlist.Error
import Shortlist.Json.Writer
import Shortlist.Value

/-!
# Operands

An operand is the value side of a filter.  A list may hold anything an operand may be, and
an entity stands for the row it identifies: wherever a value is needed its id is taken, and
nothing else about it is used.  `Operand.ofJson` reads an operand from a tree of raw options,
in which an object must be an entity.
-/

namespace Shortlist

/-- The value a filter is given. -/
inductive Operand where
  | null
  | bool (b : Bool)
  | int (n : Int64)
  | float (x : Float)
  | string (s : String)
  | list (items : List Operand)
  | entity (id : Value)

namespace Operand

mutual

/-- Whether two operands are the same.  Entities are the same when their ids are. -/
def same : Operand → Operand → Bool
  | .null, .null => true
  | .bool b, .bool c => b == c
  | .int n, .int m => n == m
  | .float x, .float y => x == y
  | .string s, .string t => s == t
  | .list vs, .list ws => sameItems vs ws
  | .entity v, .entity w => v == w
  | _, _ => false

/-- Whether two lists hold the same operands in the same places. -/
def sameItems : List Operand → List Operand → Bool
  | [], [] => true
  | v :: vs, w :: ws => same v w && sameItems vs ws
  | _, _ => false

end

instance : BEq Operand where
  beq := same

/-- Whether the operand is null. -/
def isNull : Operand → Bool
  | .null => true
  | _ => false

/-- Whether the operand is a list. -/
def isList : Operand → Bool
  | .list _ => true
  | _ => false

/-- Whether the operand is neither a list nor an entity. -/
def isScalar : Operand → Bool
  | .list _ => false
  | .entity _ => false
  | _ => true

mutual

/-- The value of an operand, with every entity replaced by its id. -/
def toValue : Operand → Value
  | .null => .null
  | .bool b => .bool b
  | .int n => .int n
  | .float x => .float x
  | .string s => .string s
  | .list items => .array (toValues items)
  | .entity id => id

/-- The values of the operands of a list. -/
def toValues : List Operand → List Value
  | [] => []
  | v :: vs => v.toValue :: toValues vs

end

/-- The value of a number of an option document: an integer when it is whole and fits, a
double otherwise. -/
def numberValue (n : Json.Number) : Value :=
  match n.toInt64? with
  | some i => .int i
  | none => .float n.toFloat

/-- The id among the members of an object: a number or a string. -/
def idOf? (members : List (String × Json)) : Option Value :=
  match Keyed.get? "id" members with
  | some (.number n) => some (numberValue n)
  | some (.string s) => some (.string s)
  | _ => none

mutual

/-- Reads an operand from the tree found at a path.  An object without id is refused, with
the path at which it stands. -/
def ofJson (path : String) : Json → Except Error Operand
  | .null => .ok .null
  | .bool b => .ok (.bool b)
  | .number n =>
    match n.toInt64? with
    | some i => .ok (.int i)
    | none => .ok (.float n.toFloat)
  | .string s => .ok (.string s)
  | .array items =>
    match ofItems path 0 items with
    | .ok vs => .ok (.list vs)
    | .error e => .error e
  | .object members =>
    match idOf? members with
    | some id => .ok (.entity id)
    | none => .error (.option path .noId)

/-- Reads the operands of a list, the first of which has index `i`. -/
def ofItems (path : String) (i : Nat) : List Json → Except Error (List Operand)
  | [] => .ok []
  | j :: js =>
    match ofJson (path ++ "[" ++ Number.natText i ++ "]") j with
    | .error e => .error e
    | .ok v =>
      match ofItems path (i + 1) js with
      | .error e => .error e
      | .ok vs => .ok (v :: vs)

end

end Operand

/-- An entity decoded from an object: its id and all members of the object. -/
structure Entity where
  id : Value
  members : List (String × Json)

/-- The operand that stands for an entity. -/
def Entity.operand (e : Entity) : Operand := .entity e.id

end Shortlist
