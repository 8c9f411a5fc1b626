import Shortlist.Dialect
import Shortlist.Join.Basic
import Shortlist.Keyed
import Shortlist.Predicate

/-!
# Queries

A query over a root table collects what its statement is made of: the select list, joins,
predicates, named parameters, order terms, a grouping, a limit and an offset.  Binding a
parameter again replaces its value in its place.
-/

namespace Shortlist

/-- The direction of an order term. -/
inductive Direction where
  | ascending
  | descending
  deriving DecidableEq

namespace Direction

/-- The spelling of a direction in a statement. -/
def sql : Direction → String
  | ascending => "ASC"
  | descending => "DESC"

/-- The spelling of a direction in data documents. -/
def tag : Direction → String
  | ascending => "asc"
  | descending => "desc"

/-- The direction a token stands for: the spelling in documents or in statements. -/
def ofToken? (s : String) : Option Direction :=
  if s = "asc" ∨ s = "ASC" then some ascending
  else if s = "desc" ∨ s = "DESC" then some descending
  else none

/-- The direction a document spells. -/
def ofTag? (s : String) : Option Direction :=
  if s = "asc" then some ascending else if s = "desc" then some descending else none

/-- The direction taken when none is given. -/
def standard : Direction := ascending

end Direction

/-- A query over a root table. -/
structure Query where
  dialect : Dialect
  table : String
  rootAlias? : Option String
  selects : List String
  joins : List Join
  predicates : List Predicate
  parameters : List (String × Value)
  order : List (String × Direction)
  grouping? : Option String
  limit? : Option UInt64
  offset? : Option UInt64

namespace Query

/-- The query over a table that selects everything, under the root alias if one is given.  An
empty alias counts as none. -/
def select (dialect : Dialect) (table : String) (rootAlias? : Option String) : Except Error Query :=
  let rootAlias? := rootAlias?.filter (!·.isEmpty)
  if !isFieldReference table then .error (.option "table" (.badTable table))
  else match rootAlias?.filter (!isIdentifier ·) with
    | some name => .error (.option "alias" (.badAlias name))
    | none => .ok
      { dialect := dialect
        table := table
        rootAlias? := rootAlias?
        selects := (rootAlias?.map (· ++ ".*")).toList
        joins := []
        predicates := []
        parameters := []
        order := []
        grouping? := none
        limit? := none
        offset? := none }

/-- Adds a predicate; all predicates of a query must hold. -/
def addPredicate (q : Query) (p : Predicate) : Query :=
  { q with predicates := q.predicates ++ [p] }

/-- Adds an order term after those already there. -/
def addOrder (q : Query) (column : String) (direction : Direction) : Query :=
  { q with order := q.order ++ [(column, direction)] }

/-- Groups the rows by a column. -/
def group (q : Query) (column : String) : Query :=
  { q with grouping? := some column }

/-- Skips rows. -/
def setOffset (q : Query) (n : UInt64) : Query :=
  { q with offset? := some n }

/-- Limits the number of rows. -/
def setLimit (q : Query) (n : UInt64) : Query :=
  { q with limit? := some n }

/-- Binds a parameter, replacing the value it has. -/
def bind (q : Query) (name : String) (v : Value) : Query :=
  { q with parameters := Keyed.put name v q.parameters }

/-- The value of a parameter. -/
def parameter? (q : Query) (name : String) : Option Value :=
  Keyed.get? name q.parameters

/-- Whether a parameter has a value. -/
def isBound (q : Query) (name : String) : Bool :=
  (q.parameter? name).isSome

/-- Adds a join as it is. -/
def addJoin (q : Query) (j : Join) : Query :=
  { q with joins := q.joins ++ [j] }

/-- Adds an expression to the select list. -/
def addSelect (q : Query) (expression : String) : Query :=
  { q with selects := q.selects ++ [expression] }

/-- Whether a table is joined. -/
def isJoined (q : Query) (table : String) : Bool :=
  q.joins.any (·.table == table)

/-- Adds a join and selects its columns, unless its table is joined already, and says whether
it was added. -/
def joinOnce (q : Query) (j : Join) : Except Error (Query × Bool) :=
  match j.check with
  | .error e => .error e
  | .ok () =>
    if q.isJoined j.table then .ok (q, false)
    else .ok ((q.addSelect (j.aliasName ++ ".*")).addJoin j, true)

/-- A fresh query has a table and an alias that may stand in a statement, and nothing else but
the columns it selects. -/
theorem select_eq_ok
    {dialect : Dialect} {table : String} {rootAlias? : Option String} {q : Query}
    (h : select dialect table rootAlias? = .ok q) :
  isFieldReference q.table = true ∧ (∀ name, q.rootAlias? = some name → isIdentifier name = true)
    ∧ q = ⟨dialect, table, q.rootAlias?, (q.rootAlias?.map (· ++ ".*")).toList,
        [], [], [], [], none, none, none⟩
  := by
  rw [select] at h
  split at h
  next => cases h
  next htable =>
    split at h
    next => cases h
    next halias =>
      cases h
      simp only [Option.filter_eq_none_iff] at halias
      refine ⟨by simpa using htable, ?_, rfl⟩
      intro name hname
      simpa using halias name hname

theorem parameter?_bind (q : Query) (name other : String) (v : Value) :
  (q.bind name v).parameter? other = if name = other then some v else q.parameter? other
  := Keyed.get?_put name other v q.parameters

theorem isBound_eq_false_iff (q : Query) (name : String) :
  q.isBound name = false ↔ name ∉ Keyed.keys q.parameters
  := by rw [← Bool.not_eq_true, isBound, parameter?, Keyed.get?_isSome]

/-- Parameters that are bound one after the other are put into those there are. -/
theorem foldl_bind (q : Query) (bindings : List (String × Value)) :
  bindings.foldl (fun q b => q.bind b.1 b.2) q
    = { q with parameters := Keyed.putEach q.parameters bindings }
  := by
  induction bindings generalizing q with
  | nil => rfl
  | cons b bindings ih => exact ih (q.bind b.1 b.2)

end Query

end Shortlist
