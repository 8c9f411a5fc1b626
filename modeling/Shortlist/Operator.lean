/-!
# Operators

An operator of a filter has a tag, a spelling in statements and a kind, which says how its
operand is used.  `ofTag?` reads the tags that `tag` writes, and one more spelling of
`notIn`.
-/

namespace Shortlist

/-- The operators a filter can use. -/
inductive Operator where
  | eq
  | neq
  | lt
  | lte
  | gt
  | gte
  | isNull
  | isNotNull
  | like
  | notLike
  | isIn
  | notIn
  | between
  deriving DecidableEq, Repr

/-- How an operator uses its operand: a comparison with one parameter, a test for null, a
pattern written into the statement, a list written into the statement, two bounds. -/
inductive Operator.Kind where
  | comparison
  | nullCheck
  | pattern
  | membership
  | range
  deriving DecidableEq, Repr

namespace Operator

/-- Every operator once. -/
def all : List Operator :=
  [eq, neq, like, notLike, between, gt, gte, lt, lte, isIn, notIn, isNull, isNotNull]

theorem mem_all (op : Operator) :
  op ∈ all
  := by
  cases op <;> decide

/-- The tag of an operator. -/
def tag : Operator → String
  | eq => "eq"
  | neq => "neq"
  | lt => "lt"
  | lte => "lte"
  | gt => "gt"
  | gte => "gte"
  | isNull => "isNull"
  | isNotNull => "isNotNull"
  | like => "like"
  | notLike => "notLike"
  | isIn => "in"
  | notIn => "notIn"
  | between => "between"

/-- The operator a tag stands for. -/
def ofTag? (s : String) : Option Operator :=
  if s = "notin" then some notIn else all.find? (·.tag = s)

theorem ofTag?_tag (op : Operator) :
  ofTag? op.tag = some op
  := by
  cases op <;> decide

/-- The spelling of an operator in a statement. -/
def sql : Operator → String
  | eq => "="
  | neq => "<>"
  | lt => "<"
  | lte => "<="
  | gt => ">"
  | gte => ">="
  | isNull => "IS NULL"
  | isNotNull => "IS NOT NULL"
  | like => "LIKE"
  | notLike => "NOT LIKE"
  | isIn => "IN"
  | notIn => "NOT IN"
  | between => "BETWEEN"

/-- The kind of an operator. -/
def kind : Operator → Kind
  | eq | neq | lt | lte | gt | gte => .comparison
  | isNull | isNotNull => .nullCheck
  | like | notLike => .pattern
  | isIn | notIn => .membership
  | between => .range

end Operator

end Shortlist
