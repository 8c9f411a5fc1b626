import Shortlist.Field
import Shortlist.Join.Condition

/-!
# Joins

A join adds a table under an alias, with an optional condition.  Its table is a field
reference, its alias an identifier and its condition an allowed one when `check` accepts it.
-/

namespace Shortlist

/-- Whether rows without a partner are kept. -/
inductive Join.Kind where
  | inner
  | left
  deriving DecidableEq

/-- The spelling of a kind of join in a statement. -/
def Join.Kind.sql : Join.Kind → String
  | .inner => "INNER JOIN"
  | .left => "LEFT JOIN"

/-- A joined table. -/
structure Join where
  kind : Join.Kind
  table : String
  aliasName : String
  condition : Option String
  deriving DecidableEq

/-- Refuses a join whose table, alias or condition may not stand in a statement, the first of
these that may not. -/
def Join.check (j : Join) : Except Error Unit :=
  if !isFieldReference j.table then .error (.join (.badTarget j.table))
  else if !isIdentifier j.aliasName then .error (.join (.badAlias j.aliasName))
  else match j.condition with
    | none => .ok ()
    | some condition =>
      if Join.isCondition condition then .ok () else .error (.join (.unsafeCondition condition))

end Shortlist
