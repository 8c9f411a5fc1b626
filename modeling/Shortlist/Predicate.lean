import Shortlist.Operator
import Shortlist.Value

/-!
# Predicates

A predicate tests one column, whose qualified name it holds.  Comparisons and ranges name
their parameters; patterns and lists are written into the statement.
-/

namespace Shortlist

/-- A condition on the rows of a query. -/
inductive Predicate where
  | compare (column : String) (op : Operator) (parameter : String)
  | null (column : String) (negated : Bool)
  | like (column : String) (negated : Bool) (pattern : String)
  | isIn (column : String) (negated : Bool) (values : List Value)
  | between (column : String) (low high : String)

namespace Predicate

/-- The column a predicate tests. -/
def column : Predicate → String
  | .compare column _ _ => column
  | .null column _ => column
  | .like column _ _ => column
  | .isIn column _ _ => column
  | .between column _ _ => column

/-- The parameters a predicate names, in order. -/
def parameters : Predicate → List String
  | .compare _ _ parameter => [parameter]
  | .between _ low high => [low, high]
  | .null .. | .like .. | .isIn .. => []

end Predicate

end Shortlist
