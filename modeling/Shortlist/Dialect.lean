import Shortlist.Number.Layout
import Shortlist.Number.Whole
import Shortlist.Text.Quoted
import Shortlist.Value

/-!
# Dialects

The two dialects differ in how a placeholder and a truth value are spelled, and in whether an
offset may stand without a limit.  `Dialect.literal` writes a value into a statement.
-/

namespace Shortlist

/-- The dialects a statement can be written in. -/
inductive Dialect where
  | postgres
  | sqlite
  deriving DecidableEq

namespace Dialect

/-- The placeholder of the `k`-th parameter, counted from one. -/
def placeholder : Dialect → Nat → String
  | .postgres, k => "$" ++ Number.natText k
  | .sqlite, k => "?" ++ Number.natText k

/-- A truth value. -/
def truth : Dialect → Bool → String
  | .postgres, true => "TRUE"
  | .postgres, false => "FALSE"
  | .sqlite, true => "1"
  | .sqlite, false => "0"

/-- The limit that limits nothing, where an offset needs a limit before it. -/
def unlimited : Dialect → Option String
  | .postgres => none
  | .sqlite => some "-1"

/-- A double: digits when it is finite, a quoted name when it is not. -/
def float (x : Float) : String :=
  if Number.isFinite x then Number.floatText x else Text.quote (Number.floatText x)

mutual

/-- A value as it is written into a statement. -/
def literal (d : Dialect) : Value → String
  | .null => "NULL"
  | .bool b => d.truth b
  | .int n => Number.intText n.toInt
  | .float x => float x
  | .string s => Text.quote s
  | .array items => "(" ++ ", ".intercalate (d.literals items) ++ ")"

/-- The values of an array as they are written into a statement. -/
def literals (d : Dialect) : List Value → List String
  | [] => []
  | v :: vs => d.literal v :: d.literals vs

end

end Dialect

end Shortlist
