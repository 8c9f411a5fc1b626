import Shortlist.Criteria.Basic

/-!
# Drafts of criteria

A draft is put together call by call from texts that have not been read, and `Draft.build`
makes criteria of it.  Filtering a field again replaces its operand in its place; an operator
given again replaces the one before.
-/

namespace Shortlist

/-- Criteria whose fields have not been read. -/
structure Criteria.Draft where
  items : UInt32
  page : UInt32
  order : List (String × Direction)
  grouping? : Option String
  filters : List (String × Operand)
  operators : List (String × Operator)
  skipNull : Bool

namespace Criteria.Draft

/-- The draft before any call. -/
def new : Draft where
  items := Criteria.standard.items
  page := Criteria.standard.page
  order := []
  grouping? := none
  filters := []
  operators := []
  skipNull := Criteria.standard.skipNull

/-- Sets the number of items on a page, zero for no limit. -/
def setItems (d : Draft) (n : UInt32) : Draft := { d with items := n }

/-- Sets the number of the page. -/
def setPage (d : Draft) (n : UInt32) : Draft := { d with page := n }

/-- Adds an order term. -/
def orderBy (d : Draft) (field : String) (direction : Direction) : Draft :=
  { d with order := d.order ++ [(field, direction)] }

/-- Sets the grouping; an empty text stands for none. -/
def groupBy (d : Draft) (field : String) : Draft := { d with grouping? := some field }

/-- Filters a field. -/
def filter (d : Draft) (field : String) (v : Operand) : Draft :=
  { d with filters := Keyed.put field v d.filters }

/-- Chooses the operator of a field. -/
def operator (d : Draft) (field : String) (op : Operator) : Draft :=
  { d with operators := d.operators ++ [(field, op)] }

/-- Sets whether filters with a null operand are skipped. -/
def setSkipNull (d : Draft) (b : Bool) : Draft := { d with skipNull := b }

/-- Reads a field found at a path. -/
def readField (path : String) (s : String) : Except Error Field :=
  (Field.read s).mapError fun fault => .option path (.rejectedField s fault)

/-- Reads order terms, the first of which has index `i`. -/
def readOrder (i : Nat) : List (String × Direction) → Except Error (List OrderTerm)
  | [] => .ok []
  | (s, direction) :: terms => do
    let field ← readField ("order[" ++ Number.natText i ++ "].by") s
    let terms ← readOrder (i + 1) terms
    return ⟨field, direction⟩ :: terms

/-- Reads the fields of filters. -/
def readFilters : List (String × Operand) → Except Error (List Filter)
  | [] => .ok []
  | (s, operand) :: filters => do
    let field ← Field.parse s
    let filters ← readFilters filters
    return ⟨field, operand⟩ :: filters

/-- Reads the fields of operators into a table. -/
def readOperators (t : Operators) : List (String × Operator) → Except Error Operators
  | [] => .ok t
  | (s, op) :: operators => do
    let field ← readField ("operators." ++ s) s
    readOperators (t.insert field.text op) operators

/-- Reads the grouping. -/
def readGrouping : Option String → Except Error (Option Field)
  | none => .ok none
  | some s => if s.isEmpty then .ok none else (readField "group_by" s).map some

/-- The criteria of a draft, or the first fault of its page, order, grouping, filters and
operators. -/
def build (d : Draft) : Except Error Criteria :=
  if d.page = 0 then .error (.option "page" .notPositive)
  else do
    let order ← readOrder 0 d.order
    let grouping? ← readGrouping d.grouping?
    let filters ← readFilters d.filters
    let operators ← readOperators .empty d.operators
    return { items := d.items, page := d.page, order, grouping?, filters, operators,
             skipNull := d.skipNull }

end Criteria.Draft

end Shortlist
