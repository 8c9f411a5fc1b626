import Mathlib.Data.List.Forall2
import Shortlist.Criteria.Options
import Shortlist.Proofs.Keyed.Order

/-!
# The grammar of raw options

Which trees are read, and as what.  A relation says it for every kind of option, without the
order in which things are looked at and without paths of faults, and a reader reads a tree
exactly as its relation says.
-/

namespace Shortlist

/-- A text is read as the field of this text. -/
theorem Field.read_eq_ok_iff (s : String) (f : Field) :
  Field.read s = .ok f ↔ s = f.text
  := by
  rw [Field.read]
  constructor
  · intro h
    split_ifs at h
    cases h
    rfl
  · rintro rfl
    have hne : f.text.isEmpty = false := by
      have hvalid := f.valid
      rw [← Bool.not_eq_true, String.isEmpty_iff]
      intro h
      rw [h] at hvalid
      revert hvalid
      decide
    simp [hne, f.valid]

/-- A text is parsed as the field of this text. -/
theorem Field.parse_eq_ok_iff (s : String) (f : Field) :
  Field.parse s = .ok f ↔ s = f.text
  := by rw [parse, mapError_eq_ok_iff, read_eq_ok_iff]

/-! ### Operands -/

/-- The operand a tree is read as.  Of an object nothing but its id counts. -/
inductive Json.IsOperand : Json → Operand → Prop
  | null : IsOperand .null .null
  | bool (b : Bool) : IsOperand (.bool b) (.bool b)
  | int {n : Json.Number} {i : Int64} (h : n.toInt64? = some i) : IsOperand (.number n) (.int i)
  | float {n : Json.Number} (h : n.toInt64? = none) : IsOperand (.number n) (.float n.toFloat)
  | string (s : String) : IsOperand (.string s) (.string s)
  | list {items : List Json} {vs : List Operand} (h : List.Forall₂ IsOperand items vs) :
      IsOperand (.array items) (.list vs)
  | entity {members : List (String × Json)} {id : Value}
      (h : Operand.idOf? members = some id) : IsOperand (.object members) (.entity id)

namespace Operand

mutual

/-- A tree is decoded as the operand it is read as. -/
theorem ofJson_eq_ok_iff (path : String) (j : Json) (v : Operand) :
  ofJson path j = .ok v ↔ j.IsOperand v
  := by
  cases j with
  | number n =>
    rw [ofJson]
    constructor
    · intro h
      split at h <;> cases h
      · exact .int ‹_›
      · exact .float ‹_›
    · intro h
      cases h with
      | int h => rw [h]
      | float h => rw [h]
  | array items =>
    rw [ofJson]
    constructor
    · intro h
      split at h <;> cases h
      exact .list ((ofItems_eq_ok_iff path 0 items _).mp ‹_›)
    · intro h
      cases h with
      | list h => rw [(ofItems_eq_ok_iff path 0 items _).mpr h]
  | object members =>
    rw [ofJson]
    constructor
    · intro h
      split at h <;> cases h
      exact .entity ‹_›
    · intro h
      cases h with
      | entity h => rw [h]
  | _ =>
    constructor
    · intro h
      cases h
      constructor
    · intro h
      cases h
      rfl

/-- The items of a list are decoded as the operands they are read as, one for one. -/
theorem ofItems_eq_ok_iff (path : String) (i : Nat) (js : List Json) (vs : List Operand) :
  ofItems path i js = .ok vs ↔ List.Forall₂ Json.IsOperand js vs
  := by
  cases js with
  | nil => simp [ofItems, eq_comm]
  | cons j js =>
    rw [ofItems]
    constructor
    · intro h
      split at h
      · cases h
      · split at h <;> cases h
        apply List.Forall₂.cons
        · apply (ofJson_eq_ok_iff ..).mp ‹_›
        · apply (ofItems_eq_ok_iff ..).mp ‹_›
    · intro h
      cases h with
      | cons hj hjs =>
        rw [(ofJson_eq_ok_iff ..).mpr hj]
        simp only
        rw [(ofItems_eq_ok_iff ..).mpr hjs]

end

end Operand

/-- A tree is read as one operand at most. -/
theorem Json.IsOperand.unique {j : Json} {v w : Operand} (hv : j.IsOperand v)
    (hw : j.IsOperand w) :
  v = w
  := by
  rw [← Operand.ofJson_eq_ok_iff ""] at hv hw
  apply Except.ok.inj (hv.symm.trans hw)

/-! ### Tables of operators -/

namespace Operators

/-- The table with entries inserted in order. -/
def insertAll (t : Operators) (ops : List (String × Operator)) : Operators :=
  ops.foldl (fun t e => t.insert e.1 e.2) t

/-- The last entry of a field counts. -/
theorem get?_insertAll (t : Operators) (ops : List (String × Operator)) (field : String) :
  (t.insertAll ops).get? field
    = ((Keyed.get? field ops.reverse).map Operator.tag).or (t.get? field)
  := by
  induction ops generalizing t with
  | nil => rfl
  | cons e ops ih =>
    have hcons : t.insertAll (e :: ops) = (t.insert e.1 e.2).insertAll ops := rfl
    rw [hcons, ih, List.reverse_cons, Keyed.get?_append, insert, get?_insertTag]
    cases Keyed.get? field ops.reverse with
    | some op => rfl
    | none => by_cases h : e.1 = field <;> simp [Keyed.get?, h]

/-- Inserting entries leaves a table in order. -/
theorem sorted_insertAll {t : Operators} (h : Keyed.Sorted t.entries)
    (ops : List (String × Operator)) :
  Keyed.Sorted (t.insertAll ops).entries
  := by
  induction ops generalizing t with
  | nil => exact h
  | cons e ops ih => exact ih (h.putSorted e.1 e.2.tag)

/-- The table has for every field the tag of its last entry, in ascending order of the fields. -/
structure IsTableOf (t : Operators) (ops : List (String × Operator)) : Prop where
  sorted : Keyed.Sorted t.entries
  lookups : ∀ field, t.get? field = (Keyed.get? field ops.reverse).map Operator.tag

/-- Entries that are inserted into the empty table make their table. -/
theorem isTableOf_insertAll (ops : List (String × Operator)) :
  (empty.insertAll ops).IsTableOf ops
  := by
  have hsorted : Keyed.Sorted empty.entries := List.Pairwise.nil
  apply IsTableOf.mk (sorted_insertAll hsorted ops)
  intro field
  rw [get?_insertAll]
  apply Option.or_none

/-- Entries have one table only. -/
theorem IsTableOf.unique {t t' : Operators} {ops : List (String × Operator)}
    (h : t.IsTableOf ops) (h' : t'.IsTableOf ops) :
  t = t'
  := by
  have hentries : t.entries = t'.entries := by
    apply h.sorted.eq_of_get?_eq h'.sorted
    intro field
    exact (h.lookups field).trans (h'.lookups field).symm
  exact congrArg Operators.mk hentries

/-- The table of entries is what inserting them in order makes of the empty one. -/
theorem isTableOf_iff (t : Operators) (ops : List (String × Operator)) :
  t.IsTableOf ops ↔ t = empty.insertAll ops
  := by
  constructor
  · intro h
    apply h.unique (isTableOf_insertAll ops)
  · rintro rfl
    apply isTableOf_insertAll

/-- Tables are equal when the last entries of every field are. -/
theorem insertAll_empty_eq {ops ops' : List (String × Operator)}
    (h : ∀ field, Keyed.get? field ops.reverse = Keyed.get? field ops'.reverse) :
  empty.insertAll ops = empty.insertAll ops'
  := by
  obtain ⟨sorted, lookups⟩ := isTableOf_insertAll ops
  apply (isTableOf_iff ..).mp
  apply IsTableOf.mk sorted
  intro field
  rw [lookups, h]

end Operators

namespace Criteria

/-! ### The order -/

/-- The direction the member `dir` of an order term stands for. -/
inductive IsDirection : Option Json → Direction → Prop
  | absent : IsDirection none .standard
  | null : IsDirection (some .null) .standard
  | token {s : String} {d : Direction} (h : Direction.ofToken? s = some d) :
      IsDirection (some (.string s)) d

/-- The order term a tree is read as. -/
inductive IsOrderTerm : Json → OrderTerm → Prop
  | mk {members : List (String × Json)} {t : OrderTerm}
      (known : ∀ name ∈ Keyed.keys members, name = "by" ∨ name = "dir")
      (field : Keyed.get? "by" members = some (.string t.field.text))
      (direction : IsDirection (Keyed.get? "dir" members) t.direction) :
      IsOrderTerm (.object members) t

theorem readField_eq_ok_iff (path s : String) (f : Field) :
  readField path s = .ok f ↔ s = f.text
  := by rw [readField, mapError_eq_ok_iff, Field.read_eq_ok_iff]

theorem readOrderField_eq_ok_iff (path : String) (o : Option Json) (f : Field) :
  readOrderField path o = .ok f ↔ o = some (.string f.text)
  := by
  rw [readOrderField.eq_def]
  split
  · simp [readField_eq_ok_iff]
  · simp
  · simp
  · simp_all [mistyped]

/-- A direction is read as its relation says. -/
theorem readDirection_eq_ok_iff (path : String) (o : Option Json) (d : Direction) :
  readDirection path o = .ok d ↔ IsDirection o d
  := by
  constructor
  · intro h
    rw [readDirection.eq_def] at h
    split at h
    · split at h <;> cases h
      exact .token ‹_›
    · cases h
      exact .null
    · cases h
      exact .absent
    · cases h
  · intro h
    cases h with
    | absent => rfl
    | null => rfl
    | token h => simp [readDirection, h]

/-- An order term is read as its relation says. -/
theorem readOrderTerm_eq_ok_iff (path : String) (j : Json) (t : OrderTerm) :
  readOrderTerm path j = .ok t ↔ IsOrderTerm j t
  := by
  have hknown (members : List (String × Json)) :
      (members.find? fun m => m.1 != "by" && m.1 != "dir") = none
        ↔ ∀ name ∈ Keyed.keys members, name = "by" ∨ name = "dir" := by
    rw [List.find?_eq_none, Keyed.keys, List.forall_mem_map]
    simp only [Bool.and_eq_true, bne_iff_ne, ne_eq, not_and_or, not_not]
  constructor
  · intro h
    rw [readOrderTerm.eq_def] at h
    split at h
    · split at h
      · cases h
      · simp only [bind_eq_ok_iff, readOrderField_eq_ok_iff, readDirection_eq_ok_iff] at h
        obtain ⟨field, hfield, direction, hdirection, h⟩ := h
        cases h
        exact .mk ((hknown _).mp ‹_›) hfield hdirection
    · cases h
  · intro h
    cases h with
    | mk known field direction =>
      rw [readOrderTerm, (hknown _).mpr known, (readOrderField_eq_ok_iff ..).mpr field,
        (readDirection_eq_ok_iff ..).mpr direction]
      rfl

/-- Order terms are read one for one. -/
theorem readOrderTerms_eq_ok_iff (i : Nat) (js : List Json) (ts : List OrderTerm) :
  readOrderTerms i js = .ok ts ↔ List.Forall₂ IsOrderTerm js ts
  := by
  induction js generalizing i ts with
  | nil => simp [readOrderTerms, eq_comm]
  | cons j js ih =>
    rw [readOrderTerms]
    simp only [bind_eq_ok_iff, readOrderTerm_eq_ok_iff, ih]
    constructor
    · rintro ⟨t, ht, ts, hts, h⟩
      cases h
      exact .cons ht hts
    · intro h
      cases h with
      | cons ht hts => exact ⟨_, ht, _, hts, rfl⟩

/-- The order is read of an array, term by term. -/
theorem readOrder_eq_ok_iff (j : Json) (ts : List OrderTerm) :
  readOrder j = .ok ts ↔ ∃ items, j = .array items ∧ List.Forall₂ IsOrderTerm items ts
  := by
  cases j with
  | array items => simp [readOrder, readOrderTerms_eq_ok_iff]
  | _ => simp [readOrder, mistyped]

/-! ### Filters -/

/-- The member and the filter it is read as. -/
structure IsFilter (m : String × Json) (f : Filter) : Prop where
  name : m.1 = f.field.text
  operand : m.2.IsOperand f.operand

/-- Filters are read one for one. -/
theorem readFilterMembers_eq_ok_iff (ms : List (String × Json)) (fs : List Filter) :
  readFilterMembers ms = .ok fs ↔ List.Forall₂ IsFilter ms fs
  := by
  induction ms generalizing fs with
  | nil => simp [readFilterMembers, eq_comm]
  | cons m ms ih =>
    obtain ⟨name, j⟩ := m
    rw [readFilterMembers]
    simp only [bind_eq_ok_iff, Field.parse_eq_ok_iff, Operand.ofJson_eq_ok_iff, ih]
    constructor
    · rintro ⟨field, hfield, operand, hoperand, fs, hfs, h⟩
      cases h
      exact .cons ⟨hfield, hoperand⟩ hfs
    · intro h
      cases h with
      | cons hf hfs => exact ⟨_, hf.name, _, hf.operand, _, hfs, rfl⟩

/-- The filters are read of an object, member by member, or of an array without items. -/
theorem readFilters_eq_ok_iff (j : Json) (fs : List Filter) :
  readFilters j = .ok fs
    ↔ (∃ ms, j = .object ms ∧ List.Forall₂ IsFilter ms fs) ∨ j = .array [] ∧ fs = []
  := by
  rw [readFilters.eq_def]
  split
  · simp [readFilterMembers_eq_ok_iff]
  · simp [eq_comm]
  · simp_all
  · simp_all [mistyped]

/-! ### Operators -/

/-- The member and the entry of a table it is read as. -/
structure IsOperatorEntry (m : String × Json) (e : String × Operator) : Prop where
  name : m.1 = e.1
  valid : isFieldReference m.1 = true
  tag : ∃ tag, m.2 = .string tag ∧ Operator.ofTag? tag = some e.2

/-- An operator is read of its tag. -/
theorem readOperator_eq_ok_iff (path : String) (j : Json) (op : Operator) :
  readOperator path j = .ok op ↔ ∃ tag, j = .string tag ∧ Operator.ofTag? tag = some op
  := by
  cases j with
  | string tag => cases h : Operator.ofTag? tag <;> simp [readOperator, h]
  | _ => simp [readOperator, mistyped]

/-- Operators are read one for one and inserted in order. -/
theorem readOperatorMembers_eq_ok_iff (t : Operators) (ms : List (String × Json)) (t' : Operators) :
  readOperatorMembers t ms = .ok t'
    ↔ ∃ ops, List.Forall₂ IsOperatorEntry ms ops ∧ t' = t.insertAll ops
  := by
  induction ms generalizing t with
  | nil => simp [readOperatorMembers, Operators.insertAll, eq_comm]
  | cons m ms ih =>
    obtain ⟨name, j⟩ := m
    rw [readOperatorMembers]
    simp only [bind_eq_ok_iff, readField_eq_ok_iff, readOperator_eq_ok_iff, ih]
    constructor
    · rintro ⟨field, rfl, op, htag, ops, hops, rfl⟩
      exact ⟨(field.text, op) :: ops, .cons ⟨rfl, field.valid, htag⟩ hops, rfl⟩
    · rintro ⟨_, hops, rfl⟩
      cases hops with
      | @cons _ e _ ops he hops =>
        obtain ⟨field, op⟩ := e
        obtain ⟨rfl, valid, htag⟩ := he
        exact ⟨⟨name, valid⟩, rfl, op, htag, ops, hops, rfl⟩

/-- A table of operators is read of an object, member by member, or of an array without items. -/
theorem readOperators_eq_ok_iff (j : Json) (t : Operators) :
  readOperators j = .ok t
    ↔ (∃ ms ops, j = .object ms ∧ List.Forall₂ IsOperatorEntry ms ops ∧ t = .insertAll .empty ops)
      ∨ j = .array [] ∧ t = .empty
  := by
  rw [readOperators.eq_def]
  split
  · simp [readOperatorMembers_eq_ok_iff]
  · simp [eq_comm]
  · simp_all [mistyped]

/-! ### The grouping -/

/-- However a text is read as a field, the grouping is the field of the text, and none when the
text is empty. -/
theorem ite_isEmpty_eq_ok_iff {s : String} {x : Except Error Field}
    (hx : ∀ f, x = .ok f ↔ s = f.text) (grouping? : Option Field) :
  (if s.isEmpty then .ok none else x.map some) = .ok grouping?
    ↔ grouping?.map (·.text) = if s.isEmpty then none else some s
  := by
  split
  · simp [eq_comm]
  · cases grouping? with
    | none => cases x <;> simp [Except.map]
    | some f =>
      rw [Option.map_some, Option.some.injEq, eq_comm (a := f.text), ← hx]
      cases x <;> simp [Except.map]

/-- The grouping is the field of the text, and none when the text is empty. -/
theorem readGrouping_eq_ok_iff (s : String) (grouping? : Option Field) :
  readGrouping (.string s) = .ok grouping?
    ↔ grouping?.map (·.text) = if s.isEmpty then none else some s
  := by
  rw [readGrouping]
  apply ite_isEmpty_eq_ok_iff
  apply readField_eq_ok_iff

/-! ### All options -/

/-- Criteria are read from members when all names are known and every option that is there can
be read. -/
theorem ofMembers_eq_ok_iff (members : List (String × Json)) (c : Criteria) :
  ofMembers members = .ok c
    ↔ (∀ name ∈ Keyed.keys members, name ∈ optionNames)
      ∧ orStandard standard.items readItems (option? members "items") = .ok c.items
      ∧ orStandard standard.page readPage (option? members "page") = .ok c.page
      ∧ orStandard standard.order readOrder (option? members "order") = .ok c.order
      ∧ orStandard standard.filters readFilters (option? members "filters") = .ok c.filters
      ∧ orStandard standard.operators readOperators (option? members "operators")
          = .ok c.operators
      ∧ orStandard standard.grouping? readGrouping (option? members "group_by")
          = .ok c.grouping?
      ∧ orStandard standard.skipNull readSkipNull (option? members "skip_null_values")
          = .ok c.skipNull
  := by
  have hknown : members.find? (!optionNames.contains ·.1) = none
      ↔ ∀ name ∈ Keyed.keys members, name ∈ optionNames := by
    rw [List.find?_eq_none, Keyed.keys, List.forall_mem_map]
    simp only [Bool.not_eq_true', Bool.not_eq_false, List.contains_iff_mem]
  rw [← hknown, ofMembers]
  split
  · simp_all
  · simp only [bind_eq_ok_iff]
    constructor
    · rintro ⟨items, hitems, page, hpage, order, horder, filters, hfilters, operators, hoperators,
        grouping?, hgrouping, skipNull, hskipNull, h⟩
      cases h
      exact ⟨‹_›, hitems, hpage, horder, hfilters, hoperators, hgrouping, hskipNull⟩
    · rintro ⟨-, hitems, hpage, horder, hfilters, hoperators, hgrouping, hskipNull⟩
      exact ⟨_, hitems, _, hpage, _, horder, _, hfilters, _, hoperators, _, hgrouping, _,
        hskipNull, rfl⟩

end Criteria

end Shortlist
