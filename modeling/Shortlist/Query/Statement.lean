import Shortlist.Query.Numbering

/-!
# Statements

The statement of a query is a list of pieces, in which the predicates name their parameters.
It is written with a number for each parameter, counted from one in the order in which the
parameters are first named, so a query has a statement when every parameter its predicates
name is bound.
-/

namespace Shortlist

/-- The groups of pieces with a text between any two. -/
def separated (separator : String) (groups : List (List (Piece String))) :
    List (Piece String) :=
  [.text separator].intercalate groups

/-- The pieces of a predicate.  A list without values is a condition that never holds, or
always when negated. -/
def Predicate.pieces : Predicate → List (Piece String)
  | .compare column op parameter =>
    [.text (column ++ " " ++ op.sql ++ " "), .placeholder parameter]
  | .null column negated => [.text (column ++ if negated then " IS NOT NULL" else " IS NULL")]
  | .like column negated pattern =>
    [.text (column ++ (if negated then " NOT LIKE " else " LIKE ") ++ pattern)]
  | .isIn _ negated [] => [.text (if negated then "1=1" else "1=0")]
  | .isIn column negated values =>
    .text (column ++ if negated then " NOT IN (" else " IN (")
      :: (separated ", " (values.map fun v => [.literal v]) ++ [.text ")"])
  | .between column low high =>
    [.text (column ++ " BETWEEN "), .placeholder low, .text " AND ", .placeholder high]

/-- The text of a join in a statement. -/
def Join.sql (j : Join) : String :=
  let condition := match j.condition with
    | none => ""
    | some condition => " ON " ++ condition
  " " ++ j.kind.sql ++ " " ++ j.table ++ " " ++ j.aliasName ++ condition

/-- A statement with the values of its numbered parameters. -/
structure Rendered where
  sql : String
  parameters : List Value

namespace Query

/-- The text of a statement up to its conditions. -/
def headText (q : Query) : String :=
  let selects := if q.selects.isEmpty then "*" else ", ".intercalate q.selects
  let root := match q.rootAlias? with
    | none => ""
    | some name => " " ++ name
  "SELECT " ++ selects ++ " FROM " ++ q.table ++ root ++ String.join (q.joins.map Join.sql)

/-- The pieces of the conditions. -/
def conditionPieces (q : Query) : List (Piece String) :=
  if q.predicates.isEmpty then []
  else .text " WHERE " :: separated " AND " (q.predicates.map Predicate.pieces)

/-- The grouping in a statement. -/
def groupText (q : Query) : String :=
  match q.grouping? with
  | none => ""
  | some column => " GROUP BY " ++ column

/-- The order terms in a statement. -/
def orderText (q : Query) : String :=
  if q.order.isEmpty then ""
  else " ORDER BY " ++ ", ".intercalate (q.order.map fun (column, d) => column ++ " " ++ d.sql)

/-- The limit in a statement.  Where an offset needs a limit, one that limits nothing is
written. -/
def limitText (q : Query) : String :=
  match q.limit?, q.offset?, q.dialect.unlimited with
  | some n, _, _ => " LIMIT " ++ Number.natText n.toNat
  | none, some _, some unlimited => " LIMIT " ++ unlimited
  | none, _, _ => ""

/-- The offset in a statement. -/
def offsetText (q : Query) : String :=
  match q.offset? with
  | none => ""
  | some n => " OFFSET " ++ Number.natText n.toNat

/-- The pieces of a statement. -/
def pieces (q : Query) : List (Piece String) :=
  .text q.headText :: (q.conditionPieces
    ++ [.text q.groupText, .text q.orderText, .text q.limitText, .text q.offsetText])

/-- The statement of a query and the values of its parameters in the order of their numbers.
The first parameter that is named and not bound is an error. -/
def render (q : Query) : Except Error Rendered :=
  (Numbering.empty.assign q.parameters q.pieces).map fun (pieces, n) =>
    { sql := String.join (pieces.map (Piece.sql q.dialect)), parameters := n.values }

end Query

end Shortlist
