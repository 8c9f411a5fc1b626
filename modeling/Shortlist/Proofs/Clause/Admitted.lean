import Shortlist.Proofs.Clause.Parameters
import Shortlist.Proofs.Clause.Refusal

/-!
# Bounds and members

No bound of a range is null, and neither bounds nor members of a list are arrays: `Admits` says
so of values.  The shape of an operand is checked before the entities in it are replaced by their
ids.  So a clause has admitted bounds and members exactly when these ids are admitted, and only an
operand that has to be refused for what is null or a list in it is refused.
-/

namespace Shortlist

/-- The values that operators of a kind may have for bounds and members. -/
def Operator.Kind.Admits : Operator.Kind → Value → Prop
  | .range, v => v ≠ .null ∧ v.isArray = false
  | .membership, v => v.isArray = false
  | .comparison, _ | .nullCheck, _ | .pattern, _ => True

namespace Operand

/-- An entity with the id is the operand, or stands in it when it is a list. -/
inductive HasEntity (id : Value) : Operand → Prop
  | lone : HasEntity id (.entity id)
  | item {items : List Operand} (mem : .entity id ∈ items) : HasEntity id (.list items)

/-- The ids of the entities are admitted for bounds and members. -/
def HasAdmittedIds (kind : Operator.Kind) (v : Operand) : Prop :=
  ∀ id, v.HasEntity id → kind.Admits id

variable {kind : Operator.Kind}

/-- A member of a list that is neither null nor a list has an admitted value exactly when it is
no entity or its id is admitted. -/
theorem admits_toValue_iff {v : Operand} (null : v.isNull = false ∨ kind ≠ .range)
    (list : v.isList = false) :
  kind.Admits v.toValue ↔ ∀ id, v = .entity id → kind.Admits id
  := by
  cases v with
  | null =>
    have hrange : kind ≠ .range := by simpa [isNull] using null
    cases kind <;> simp_all [toValue, Operator.Kind.Admits, Value.isArray]
  | list items => cases list
  | entity id => simp [toValue]
  | _ => cases kind <;> simp [toValue, Operator.Kind.Admits, Value.isArray]

theorem hasAdmittedIds_list_iff (items : List Operand) :
  (list items).HasAdmittedIds kind ↔ ∀ v ∈ items, ∀ id, v = .entity id → kind.Admits id
  := by
  constructor
  · rintro h _ hv id rfl
    apply h id (.item hv)
  · rintro h id ⟨⟩
    apply h _ ‹_› id rfl

/-- Bounds are admitted exactly when the ids of the entities among them are. -/
theorem Bounds.admits_iff {v : Operand} {low high : Value} (h : v.Bounds low high) :
  (Operator.Kind.range.Admits low ∧ Operator.Kind.range.Admits high) ↔ v.HasAdmittedIds .range
  := by
  obtain ⟨lowNull, highNull, lowList, highList⟩ := h
  rw [hasAdmittedIds_list_iff, List.forall_mem_cons, List.forall_mem_singleton,
    admits_toValue_iff (.inl lowNull) lowList, admits_toValue_iff (.inl highNull) highList]

/-- Members are admitted exactly when the ids of the entities among them are. -/
theorem Members.admits_iff {v : Operand} {values : List Value} (h : v.Members values) :
  (∀ w ∈ values, Operator.Kind.membership.Admits w) ↔ v.HasAdmittedIds .membership
  := by
  have hkind : Operator.Kind.membership ≠ .range := by decide
  cases h with
  | @list items flat =>
    rw [hasAdmittedIds_list_iff, List.forall_mem_map]
    apply forall₂_congr
    intro v hv
    apply admits_toValue_iff (.inr hkind) (flat v hv)
  | lone single =>
    rw [List.forall_mem_singleton, admits_toValue_iff (.inr hkind) single]
    constructor
    · rintro h id ⟨⟩
      · apply h id rfl
      · cases single
    · rintro h id rfl
      apply h id .lone

/-- An operand with a member that is not admitted, and is no entity, is refused. -/
theorem exists_misfit_of_not_admits {items : List Operand} {v : Operand} (mem : v ∈ items)
    (admitted : (list items).HasAdmittedIds kind) (h : ¬ kind.Admits v.toValue) :
  ∃ fault, (list items).Misfit kind fault
  := by
  have hv := (hasAdmittedIds_list_iff items).mp admitted v mem
  cases kind with
  | comparison => cases h trivial
  | nullCheck => cases h trivial
  | pattern => cases h trivial
  | membership =>
    cases list : v.isList with
    | true => exact ⟨_, .nestedList mem list⟩
    | false => cases h ((admits_toValue_iff (.inr (by decide)) list).mpr hv)
  | range =>
    by_cases length : items.length = 2
    · obtain ⟨low, high, rfl⟩ := List.length_eq_two.mp length
      by_cases null : low.isNull = true ∨ high.isNull = true
      · exact ⟨_, .nullBound null⟩
      · simp only [not_or, Bool.not_eq_true] at null
        refine ⟨_, .listBound null.1 null.2 ?_⟩
        by_contra list
        simp only [not_or, Bool.not_eq_true] at list
        apply h
        rw [List.mem_pair] at mem
        obtain rfl | rfl := mem
        · apply (admits_toValue_iff (.inl null.1) list.1).mpr hv
        · apply (admits_toValue_iff (.inl null.2) list.2).mpr hv
    · exact ⟨_, .notTwoBounds length⟩

end Operand

/-- When parameters have the given values, the predicate has bounds or members of the filter, and
all of them are admitted exactly when the ids of the filter's entities are. -/
structure Filter.GivesAdmitted (operators : Operators) (value? : String → Option Value) (f : Filter)
    (p : Predicate) : Prop where
  range : ∀ op, operators.operatorOf f.field.text = .ok op → op.kind = .range →
    ∃ column low high, p = .between column f.field.lowParameter f.field.highParameter
      ∧ value? f.field.lowParameter = some low ∧ value? f.field.highParameter = some high
      ∧ (Operator.Kind.range.Admits low ∧ Operator.Kind.range.Admits high
        ↔ f.operand.HasAdmittedIds .range)
  membership : ∀ op, operators.operatorOf f.field.text = .ok op → op.kind = .membership →
    ∃ column values, p = .isIn column (op = .notIn) values
      ∧ ((∀ v ∈ values, Operator.Kind.membership.Admits v)
        ↔ f.operand.HasAdmittedIds .membership)

/-- The clause of a filter has its bounds or members when its bindings are kept. -/
theorem Clause.givesAdmitted_of_ofFilter
    {operators : Operators} {rootAlias? : Option String} {f : Filter} {c : Clause}
    {value? : String → Option Value} (h : ofFilter operators rootAlias? f = .ok c)
    (kept : ∀ b ∈ c.bindings, value? b.1 = some b.2) :
  f.GivesAdmitted operators value? c.predicate
  := by
  obtain ⟨op, column, hop, -, hc⟩ := (ofFilter_eq_ok_iff ..).mp h
  constructor
  · intro op' hop' hkind
    obtain rfl : op = op' := Except.ok.inj (hop.symm.trans hop')
    rw [ofOperand, hkind] at hc
    cases hbounds : f.operand.bounds with
    | error fault => simp [hbounds] at hc
    | ok bounds =>
      obtain ⟨low, high⟩ := bounds
      simp only [hbounds] at hc
      cases hc
      use column, low, high, rfl, kept _ List.mem_cons_self,
        kept _ (List.mem_cons_of_mem _ List.mem_cons_self)
      apply (Operand.bounds_of_bounds hbounds).admits_iff
  · intro op' hop' hkind
    obtain rfl : op = op' := Except.ok.inj (hop.symm.trans hop')
    rw [ofOperand, hkind] at hc
    cases hmembers : f.operand.members? with
    | none => simp [hmembers] at hc
    | some values =>
      simp only [hmembers] at hc
      cases hc
      use column, values, rfl
      apply (Operand.members_of_members? hmembers).admits_iff

end Shortlist
