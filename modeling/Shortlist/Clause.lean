import Shortlist.Criteria.Basic

/-!
# Clauses

A clause is what one filter adds to a query: a predicate, and the parameters it names with
their values.  Whether a filter has a clause depends only on its operator, its operand and
the root alias, not on what the query holds already.
-/

namespace Shortlist

/-- A predicate and the values of the parameters it names. -/
structure Clause where
  predicate : Predicate
  bindings : List (String × Value)

namespace Operand

/-- The text a pattern is made of. -/
def patternText? : Operand → Option String
  | .string s => some s
  | .int n => some (Number.intText n.toInt)
  | .float x => some (Number.floatText x)
  | .bool true => some "true"
  | .bool false => some "false"
  | .null | .list _ | .entity _ => none

/-- The values of a list without lists in it; an operand that is no list counts as a list of
one. -/
def members? : Operand → Option (List Value)
  | .list items => if items.any isList then none else some (items.map toValue)
  | v => some [v.toValue]

/-- The bounds of a range: the two members of a list, neither null nor a list. -/
def bounds : Operand → Except OperandFault (Value × Value)
  | .list [low, high] =>
    if low.isNull || high.isNull then .error .nullBound
    else if low.isList || high.isList then .error .notTwoBounds
    else .ok (low.toValue, high.toValue)
  | .list _ => .error .notTwoBounds
  | _ => .error .notAList

end Operand

/-- The parameter of a lower bound. -/
def Field.lowParameter (f : Field) : String := f.parameter ++ "_from"

/-- The parameter of an upper bound. -/
def Field.highParameter (f : Field) : String := f.parameter ++ "_to"

namespace Clause

/-- The clause of a filter with a given operator on a qualified column. -/
def ofOperand (column : String) (op : Operator) (f : Filter) : Except OperandFault Clause :=
  match op.kind with
  | .comparison =>
    let name := f.field.parameter
    .ok ⟨.compare column op name, [(name, f.operand.toValue)]⟩
  | .nullCheck => .ok ⟨.null column (op = .isNotNull), []⟩
  | .pattern =>
    match f.operand.patternText? with
    | some text => .ok ⟨.like column (op = .notLike) (Text.quote ("%" ++ text ++ "%")), []⟩
    | none => .error .noText
  | .membership =>
    match f.operand.members? with
    | some values => .ok ⟨.isIn column (op = .notIn) values, []⟩
    | none => .error .nestedList
  | .range =>
    match f.operand.bounds with
    | .ok (low, high) => .ok
      ⟨.between column f.field.lowParameter f.field.highParameter,
        [(f.field.lowParameter, low), (f.field.highParameter, high)]⟩
    | .error fault => .error fault

/-- The clause of a filter: its operator is looked up first, then its field is qualified, then
its operand is used. -/
def ofFilter (operators : Operators) (rootAlias? : Option String) (f : Filter) :
    Except Error Clause :=
  match operators.operatorOf f.field.text with
  | .error e => .error e
  | .ok op =>
    match f.field.qualify rootAlias? with
    | .error e => .error e
    | .ok column => (ofOperand column op f).mapError (.operand f.field.text)

/-- The parameters of a clause. -/
def names (c : Clause) : List String := c.bindings.map (·.1)

/-- Adds a clause to a query. -/
def addTo (c : Clause) (q : Query) : Query :=
  (c.bindings.foldl (fun q b => q.bind b.1 b.2) q).addPredicate c.predicate

end Clause

end Shortlist
