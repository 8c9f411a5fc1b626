import Shortlist.Clause
import Shortlist.Criteria.Options
import Shortlist.Handlers

/-!
# Compilation of criteria

A compilation puts criteria onto a query in four phases: filters, order, grouping, page.  A
parameter is bound once: a filter that needs a name which an earlier filter or the query has
bound is refused.  A filter is refused before anything of it is added, so a phase that stops
leaves behind exactly what came before.
-/

namespace Shortlist

/-- A query onto which criteria are being put.  `claims` records which field bound a
parameter. -/
structure Compilation where
  query : Query
  criteria : Criteria
  operators : Operators
  handlers : Handlers Query
  claims : List (String × Field)

namespace Compilation

/-- The compilation that begins with a query, with the operators of the criteria and without
handlers. -/
def start (query : Query) (criteria : Criteria) : Compilation where
  query := query
  criteria := criteria
  operators := criteria.operators
  handlers := .empty
  claims := []

/-- Uses handlers for the fields that have one. -/
def withHandlers (c : Compilation) (handlers : Handlers Query) : Compilation :=
  { c with handlers := handlers }

/-- Uses another table of operators, whose tags have not been read. -/
def setOperators (c : Compilation) (operators : Operators) : Compilation :=
  { c with operators := operators }

/-- Why a parameter may not be bound. -/
def nameFault? (c : Compilation) (name : String) : Option FieldFault :=
  match Keyed.get? name c.claims with
  | some owner => some (.claimed name owner.text)
  | none => if c.query.isBound name then some (.bound name) else none

/-- Adds the clause of a field, unless one of its parameters may not be bound. -/
def addClause (c : Compilation) (field : Field) (clause : Clause) : Progress Compilation :=
  match clause.names.findSome? c.nameFault? with
  | some fault => .stop c (.field field.text fault)
  | none => .done
    { c with
      query := clause.addTo c.query
      claims := c.claims ++ clause.names.map (·, field) }

/-- Whether a filter is left out. -/
def skips (c : Compilation) (f : Filter) : Bool :=
  c.criteria.skipNull && f.operand.isNull

/-- Adds one filter: by the handler of its field if there is one, by its clause otherwise. -/
def addFilter (c : Compilation) (f : Filter) : Progress Compilation :=
  if c.skips f then .done c
  else match c.handlers.get? f.field.text with
    | some handler => (handler c.query f.field f.operand).map fun q => { c with query := q }
    | none =>
      match Clause.ofFilter c.operators c.query.rootAlias? f with
      | .error e => .stop c e
      | .ok clause => c.addClause f.field clause

/-- Adds the filters in order. -/
def addFilters (c : Compilation) : Progress Compilation :=
  Progress.each addFilter c c.criteria.filters

/-- Adds one order term. -/
def addOrderTerm (c : Compilation) (t : OrderTerm) : Progress Compilation :=
  match t.field.qualify c.query.rootAlias? with
  | .error e => .stop c e
  | .ok column => .done { c with query := c.query.addOrder column t.direction }

/-- Adds the order terms in order. -/
def addOrder (c : Compilation) : Progress Compilation :=
  Progress.each addOrderTerm c c.criteria.order

/-- Sets the grouping as it is written, if there is one. -/
def setGrouping (c : Compilation) : Compilation :=
  match c.criteria.grouping? with
  | none => c
  | some field => { c with query := c.query.group field.text }

/-- Sets offset and limit, unless the page has no limit. -/
def setPage (c : Compilation) : Compilation :=
  match c.criteria.offset? with
  | none => c
  | some offset =>
    { c with query := (c.query.setOffset offset).setLimit c.criteria.items.toUInt64 }

/-- The four phases. -/
def run (c : Compilation) : Progress Compilation :=
  (c.addFilters.andThen addOrder).andThen fun c => .done c.setGrouping.setPage

/-- The query with the criteria put onto it. -/
def build (c : Compilation) : Except Error Query :=
  c.run.result.map (·.query)

end Compilation

namespace Query

/-- Puts criteria onto a query. -/
def applyCriteria (q : Query) (criteria : Criteria) : Progress Query :=
  (Compilation.start q criteria).run.map (·.query)

/-- Puts raw options onto a query, which is left as it is when they are refused. -/
def applyOptions (q : Query) (options : Json) : Progress Query :=
  match Criteria.ofOptions options with
  | .error e => .stop q e
  | .ok criteria => q.applyCriteria criteria

end Query

end Shortlist
