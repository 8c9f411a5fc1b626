import Shortlist.Field
import Shortlist.Operand
import Shortlist.Operators
import Shortlist.Query.Basic

/-!
# Criteria

Criteria say which rows of a listing are wanted: filters, their operators, an order, a
grouping and one page.  They are read from raw options or put together as a draft, and hold
only fields that are well formed.
-/

namespace Shortlist

/-- A field to order by. -/
structure OrderTerm where
  field : Field
  direction : Direction
  deriving DecidableEq

/-- A field and the operand it is compared with. -/
structure Filter where
  field : Field
  operand : Operand

/-- Which rows of a listing are wanted.  A page of no items has no limit. -/
structure Criteria where
  items : UInt32
  page : UInt32
  order : List OrderTerm
  grouping? : Option Field
  filters : List Filter
  operators : Operators
  skipNull : Bool

namespace Criteria

/-- The criteria of a document without options. -/
def standard : Criteria where
  items := 25
  page := 1
  order := []
  grouping? := none
  filters := []
  operators := .empty
  skipNull := true

/-- The number of rows before the page, when the page has a limit. -/
def offset? (c : Criteria) : Option UInt64 :=
  if 0 < c.items then some (c.items.toUInt64 * (c.page - 1).toUInt64) else none

/-- The operand of a field. -/
def filter? (c : Criteria) (field : String) : Option Operand :=
  (c.filters.find? (·.field.text == field)).map (·.operand)

/-- Whether two lists of filters are the same, in the same order. -/
def sameFilters : List Filter → List Filter → Bool
  | [], [] => true
  | f :: fs, g :: gs => f.field == g.field && f.operand == g.operand && sameFilters fs gs
  | _, _ => false

instance : BEq Criteria where
  beq c d := c.items == d.items && c.page == d.page && c.order == d.order
    && c.grouping? == d.grouping? && sameFilters c.filters d.filters
    && c.operators == d.operators && c.skipNull == d.skipNull

end Criteria

end Shortlist
