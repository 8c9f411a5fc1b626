import Mathlib.Data.List.Induction
import Shortlist.Criteria.Draft
import Shortlist.Proofs.Criteria.Grammar

/-!
# Calls on drafts

What a sequence of calls makes of the new draft can be said without going through it: the last
call counts for an option that is set, every call for the order, and for filters the first call
of a field decides its place and the last its operand.  `build_eq_ok_iff` says exactly which
criteria are built of a draft.
-/

namespace Shortlist.Criteria.Draft

/-- A call a draft is put together with. -/
inductive Call where
  | setItems (n : UInt32)
  | setPage (n : UInt32)
  | orderBy (field : String) (direction : Direction)
  | groupBy (field : String)
  | filter (field : String) (v : Operand)
  | operator (field : String) (op : Operator)
  | setSkipNull (b : Bool)

/-- The draft after a call. -/
def perform (d : Draft) : Call → Draft
  | .setItems n => d.setItems n
  | .setPage n => d.setPage n
  | .orderBy field direction => d.orderBy field direction
  | .groupBy field => d.groupBy field
  | .filter field v => d.filter field v
  | .operator field op => d.operator field op
  | .setSkipNull b => d.setSkipNull b

/-- The draft after a sequence of calls. -/
def performAll (d : Draft) (calls : List Call) : Draft :=
  calls.foldl perform d

namespace Call

/-- The number of items a call sets. -/
def items? : Call → Option UInt32
  | .setItems n => some n
  | _ => none

/-- The page a call sets. -/
def page? : Call → Option UInt32
  | .setPage n => some n
  | _ => none

/-- The order term a call adds. -/
def term? : Call → Option (String × Direction)
  | .orderBy field direction => some (field, direction)
  | _ => none

/-- The grouping a call sets. -/
def grouping? : Call → Option String
  | .groupBy field => some field
  | _ => none

/-- The field a call filters, and its operand. -/
def filter? : Call → Option (String × Operand)
  | .filter field v => some (field, v)
  | _ => none

/-- The field a call chooses the operator of, and the operator. -/
def operator? : Call → Option (String × Operator)
  | .operator field op => some (field, op)
  | _ => none

/-- Whether filters with a null operand are skipped after a call that says so. -/
def skipNull? : Call → Option Bool
  | .setSkipNull b => some b
  | _ => none

/-- What the last of the calls that say something says. -/
def last? {α : Type} (says? : Call → Option α) (calls : List Call) : Option α :=
  calls.reverse.findSome? says?

theorem last?_concat {α : Type} (says? : Call → Option α) (calls : List Call) (call : Call) :
  last? says? (calls ++ [call]) = (says? call).or (last? says? calls)
  := by
  rw [last?, List.reverse_concat, List.findSome?_cons]
  cases says? call <;> rfl

end Call

/-- The draft that holds what calls say. -/
def ofCalls (calls : List Call) : Draft where
  items := (Call.last? Call.items? calls).getD standard.items
  page := (Call.last? Call.page? calls).getD standard.page
  order := calls.filterMap Call.term?
  grouping? := Call.last? Call.grouping? calls
  filters := Keyed.latest (calls.filterMap Call.filter?)
  operators := calls.filterMap Call.operator?
  skipNull := (Call.last? Call.skipNull? calls).getD standard.skipNull

/-- One more call changes what calls say as it changes the draft. -/
theorem ofCalls_concat (calls : List Call) (call : Call) :
  ofCalls (calls ++ [call]) = (ofCalls calls).perform call
  := by
  simp only [ofCalls, Call.last?_concat, List.filterMap_append, List.filterMap_cons,
    List.filterMap_nil]
  cases call with
  | filter field v =>
    -- the one call that does not just add at the end or replace the whole
    simp only [Call.filter?, ← Keyed.putAll_eq_latest, Keyed.putAll_concat]
    simp [perform, filter, Call.items?, Call.page?, Call.term?, Call.grouping?, Call.operator?,
      Call.skipNull?]
  | _ =>
    simp [perform, setItems, setPage, orderBy, groupBy, operator, setSkipNull, Call.items?,
      Call.page?, Call.term?, Call.grouping?, Call.filter?, Call.operator?, Call.skipNull?]

theorem performAll_new (calls : List Call) :
  new.performAll calls = ofCalls calls
  := by
  induction calls using List.reverseRecOn with
  | nil => rfl
  | append_singleton calls call ih =>
    rw [ofCalls_concat, ← ih]
    apply List.foldl_concat

/-! ### Criteria of a draft -/

theorem readField_eq_ok_iff (path s : String) (f : Field) :
  readField path s = .ok f ↔ s = f.text
  := by rw [readField, mapError_eq_ok_iff, Field.read_eq_ok_iff]

theorem readOrder_eq_ok_iff (i : Nat) (order : List (String × Direction)) (ts : List OrderTerm) :
  readOrder i order = .ok ts ↔ order = ts.map fun t => (t.field.text, t.direction)
  := by
  induction order generalizing i ts with
  | nil => cases ts <;> simp [readOrder]
  | cons e order ih =>
    obtain ⟨s, direction⟩ := e
    rw [readOrder]
    simp only [bind_eq_ok_iff, readField_eq_ok_iff, ih]
    constructor
    · rintro ⟨field, rfl, ts, rfl, h⟩
      cases h
      rfl
    · intro h
      cases ts with
      | nil => cases h
      | cons t ts =>
        obtain ⟨⟨rfl, rfl⟩, rfl⟩ := by simpa using h
        exact ⟨_, rfl, _, rfl, rfl⟩

theorem readFilters_eq_ok_iff (filters : List (String × Operand)) (fs : List Filter) :
  readFilters filters = .ok fs ↔ filters = fs.map fun f => (f.field.text, f.operand)
  := by
  induction filters generalizing fs with
  | nil => cases fs <;> simp [readFilters]
  | cons e filters ih =>
    obtain ⟨s, v⟩ := e
    rw [readFilters]
    simp only [bind_eq_ok_iff, Field.parse_eq_ok_iff, ih]
    constructor
    · rintro ⟨field, rfl, fs, rfl, h⟩
      cases h
      rfl
    · intro h
      cases fs with
      | nil => cases h
      | cons f fs =>
        obtain ⟨⟨rfl, rfl⟩, rfl⟩ := by simpa using h
        exact ⟨_, rfl, _, rfl, rfl⟩

theorem readOperators_eq_ok_iff (t : Operators) (ops : List (String × Operator)) (t' : Operators) :
  readOperators t ops = .ok t'
    ↔ (∀ field ∈ Keyed.keys ops, isFieldReference field = true) ∧ t' = t.insertAll ops
  := by
  induction ops generalizing t with
  | nil => simp [readOperators, Operators.insertAll, Keyed.keys, eq_comm (b := t')]
  | cons e ops ih =>
    obtain ⟨s, op⟩ := e
    rw [readOperators]
    simp only [bind_eq_ok_iff, readField_eq_ok_iff, ih]
    change _ ↔ (∀ field ∈ s :: Keyed.keys ops, _) ∧ t' = (t.insert s op).insertAll ops
    rw [List.forall_mem_cons, and_assoc]
    constructor
    · rintro ⟨field, rfl, valid, rfl⟩
      exact ⟨field.valid, valid, rfl⟩
    · rintro ⟨hs, valid, rfl⟩
      exact ⟨⟨s, hs⟩, rfl, valid, rfl⟩

theorem readGrouping_eq_ok_iff (o : Option String) (grouping? : Option Field) :
  readGrouping o = .ok grouping? ↔ grouping?.map (·.text) = o.filter (!·.isEmpty)
  := by
  cases o with
  | none => simp [readGrouping, eq_comm]
  | some s =>
    rw [readGrouping, ite_isEmpty_eq_ok_iff (readField_eq_ok_iff "group_by" s), Option.filter_some]
    cases s.isEmpty <;> rfl

/-- Criteria are built of a draft when they spell what it holds. -/
theorem build_eq_ok_iff (d : Draft) (c : Criteria) :
  d.build = .ok c
    ↔ c.items = d.items
      ∧ (d.page ≠ 0 ∧ c.page = d.page)
      ∧ d.order = c.order.map (fun t => (t.field.text, t.direction))
      ∧ d.filters = c.filters.map (fun f => (f.field.text, f.operand))
      ∧ ((∀ field ∈ Keyed.keys d.operators, isFieldReference field = true)
          ∧ c.operators = .insertAll .empty d.operators)
      ∧ c.grouping?.map (·.text) = d.grouping?.filter (!·.isEmpty)
      ∧ c.skipNull = d.skipNull
  := by
  rw [build]
  split
  · simp_all
  · simp only [bind_eq_ok_iff, readOrder_eq_ok_iff, readGrouping_eq_ok_iff, readFilters_eq_ok_iff,
      readOperators_eq_ok_iff]
    constructor
    · rintro ⟨order, horder, grouping?, hgrouping, filters, hfilters, operators, hoperators, h⟩
      cases h
      exact ⟨rfl, ⟨‹_›, rfl⟩, horder, hfilters, hoperators, hgrouping, rfl⟩
    · rintro ⟨hitems, ⟨-, hpage⟩, horder, hfilters, hoperators, hgrouping, hskipNull⟩
      refine ⟨_, horder, _, hgrouping, _, hfilters, _, hoperators, ?_⟩
      rw [← hitems, ← hpage, ← hskipNull]
      rfl

end Shortlist.Criteria.Draft
