import Mathlib.Data.List.Basic
import Shortlist.Proofs.Clause.Meaning

/-!
# Filters without a clause

A filter has no clause when its field has an unknown tag, when its field is bare and there is
no alias to qualify it with, or when its operator cannot take its operand.  The error is that
of the first of these that holds.
-/

namespace Shortlist

/-- The texts that are tags of operators. -/
def Operator.acceptedTags : List String := "notin" :: all.map tag

/-- The root alias qualifies nothing: there is none, or it is empty. -/
def LacksAlias (rootAlias? : Option String) : Prop :=
  rootAlias? = none ∨ rootAlias? = some ""

/-- Operators of a kind cannot take the operand, for the reason given. -/
inductive Operand.Misfit : Operator.Kind → Operand → OperandFault → Prop where
  | patternNull : Misfit .pattern .null .noText
  | patternList {items : List Operand} : Misfit .pattern (.list items) .noText
  | patternEntity {id : Value} : Misfit .pattern (.entity id) .noText
  | nestedList {items : List Operand} {v : Operand} (mem : v ∈ items) (nested : v.isList = true) :
    Misfit .membership (.list items) .nestedList
  | noList {v : Operand} (single : v.isList = false) : Misfit .range v .notAList
  | nullBound {low high : Operand} (null : low.isNull = true ∨ high.isNull = true) :
    Misfit .range (.list [low, high]) .nullBound
  | listBound {low high : Operand} (lowNull : low.isNull = false) (highNull : high.isNull = false)
      (nested : low.isList = true ∨ high.isList = true) :
    Misfit .range (.list [low, high]) .notTwoBounds
  | notTwoBounds {items : List Operand} (length : items.length ≠ 2) :
    Misfit .range (.list items) .notTwoBounds

/-- The tag of the filter's field is the tag of no operator. -/
def Filter.HasUnknownTag (operators : Operators) (f : Filter) (tag : String) : Prop :=
  operators.get? f.field.text = some tag ∧ tag ∉ Operator.acceptedTags

/-- The filter's field is bare and there is no alias to qualify it with. -/
def Filter.IsStranded (rootAlias? : Option String) (f : Filter) : Prop :=
  f.field.isQualified = false ∧ LacksAlias rootAlias?

/-- The operator of the filter cannot take its operand, for the reason given. -/
def Filter.IsMisfit (operators : Operators) (f : Filter) (fault : OperandFault) : Prop :=
  ∃ op, operators.operatorOf f.field.text = .ok op ∧ f.operand.Misfit op.kind fault

/-- The accepted tags are those that stand for an operator. -/
theorem Operator.ofTag?_eq_none_iff (s : String) :
  ofTag? s = none ↔ s ∉ acceptedTags
  := by
  rw [ofTag?, acceptedTags]
  split
  · simp_all
  · rename_i h
    rw [List.find?_eq_none]
    simp [h]

/-- A field has no operator exactly when its tag is unknown. -/
theorem Operators.operatorOf_eq_error_iff (t : Operators) (f : Filter) (e : Error) :
  t.operatorOf f.field.text = .error e
    ↔ ∃ tag, f.HasUnknownTag t tag ∧ e = .unknownOperator f.field.text tag
  := by
  unfold operatorOf Filter.HasUnknownTag
  cases t.get? f.field.text with
  | none => simp
  | some tag =>
    cases htag : Operator.ofTag? tag with
    | none =>
      simp only [htag]
      constructor
      · intro h
        cases h
        exact ⟨tag, ⟨rfl, (Operator.ofTag?_eq_none_iff tag).mp htag⟩, rfl⟩
      · rintro ⟨_, ⟨⟨⟩, -⟩, rfl⟩
        rfl
    | some op =>
      simp only [htag, reduceCtorEq, false_iff]
      rintro ⟨_, ⟨⟨⟩, hunknown⟩, -⟩
      rw [← Operator.ofTag?_eq_none_iff, htag] at hunknown
      cases hunknown

/-- A field cannot be qualified exactly when it is bare and there is no alias. -/
theorem Field.qualify_eq_error_iff (f : Field) (rootAlias? : Option String) (e : Error) :
  f.qualify rootAlias? = .error e
    ↔ f.isQualified = false ∧ LacksAlias rootAlias? ∧ e = .missingAlias
  := by
  unfold qualify qualifyText isQualified LacksAlias
  cases f.text.toList.contains '.' with
  | true => simp
  | false =>
    cases rootAlias? with
    | none => simp [eq_comm]
    | some name =>
      by_cases hname : name = ""
      · subst hname
        constructor
        · intro h
          cases h
          exact ⟨rfl, .inr rfl, rfl⟩
        · rintro ⟨-, -, rfl⟩
          rfl
      · simp [hname]

namespace Operand

theorem Misfit.fault_of_pattern {v : Operand} {fault : OperandFault} (h : v.Misfit .pattern fault) :
  fault = .noText
  := by cases h <;> rfl

theorem Misfit.fault_of_membership
    {v : Operand} {fault : OperandFault} (h : v.Misfit .membership fault) :
  fault = .nestedList
  := by cases h; rfl

/-- An operand has no text exactly when patterns cannot take it. -/
theorem patternText?_eq_none_iff (v : Operand) :
  v.patternText? = none ↔ v.Misfit .pattern .noText
  := by
  constructor
  · intro h
    cases v with
    | null => apply Misfit.patternNull
    | list items => apply Misfit.patternList
    | entity id => apply Misfit.patternEntity
    | bool b => cases b <;> cases h
    | int n => cases h
    | float x => cases h
    | string s => cases h
  · intro h
    cases h <;> rfl

/-- An operand has no members exactly when membership tests cannot take it. -/
theorem members?_eq_none_iff (v : Operand) :
  v.members? = none ↔ v.Misfit .membership .nestedList
  := by
  constructor
  · intro h
    cases v with
    | list items =>
      by_cases hany : items.any isList = true
      · obtain ⟨v, hv, hlist⟩ := List.any_eq_true.mp hany
        apply Misfit.nestedList hv hlist
      · rw [members?, if_neg hany] at h
        cases h
    | _ => cases h
  · rintro (_ | _ | _ | ⟨hv, hlist⟩)
    rw [members?, if_pos]
    apply List.any_eq_true.mpr ⟨_, hv, hlist⟩

/-- An operand has no bounds exactly when ranges cannot take it, for the same reason. -/
theorem bounds_eq_error_iff (v : Operand) (fault : OperandFault) :
  v.bounds = .error fault ↔ v.Misfit .range fault
  := by
  constructor
  · intro h
    unfold bounds at h
    split at h
    · rename_i low high
      split at h
      · rename_i hnull
        cases h
        apply Misfit.nullBound
        simpa using hnull
      · rename_i hnull
        simp only [Bool.or_eq_true, not_or, Bool.not_eq_true] at hnull
        split at h
        · rename_i hlist
          cases h
          apply Misfit.listBound hnull.1 hnull.2
          simpa using hlist
        · cases h
    · rename_i items htwo
      cases h
      apply Misfit.notTwoBounds
      intro hlength
      obtain ⟨low, high, rfl⟩ := List.length_eq_two.mp hlength
      apply htwo low high rfl
    · rename_i hlist
      cases h
      apply Misfit.noList
      cases v with
      | list items => cases hlist items rfl
      | _ => rfl
  · intro h
    cases h with
    | noList single =>
      cases v with
      | list items => cases single
      | _ => rfl
    | nullBound null => simp [bounds, null]
    | listBound lowNull highNull nested => simp [bounds, lowNull, highNull, nested]
    | @notTwoBounds items length =>
      match items, length with
      | [], _ => rfl
      | [_], _ => rfl
      | [_, _], length => cases length rfl
      | _ :: _ :: _ :: _, _ => rfl

end Operand

namespace Clause

/-- A qualified filter has no clause exactly when its operator cannot take its operand. -/
theorem ofOperand_eq_error_iff
    (column : String) (op : Operator) (f : Filter) (fault : OperandFault) :
  ofOperand column op f = .error fault ↔ f.operand.Misfit op.kind fault
  := by
  rw [ofOperand]
  cases op.kind with
  | comparison =>
    simp only [reduceCtorEq, false_iff]
    rintro ⟨⟩
  | nullCheck =>
    simp only [reduceCtorEq, false_iff]
    rintro ⟨⟩
  | pattern =>
    have hnone := f.operand.patternText?_eq_none_iff
    cases ht : f.operand.patternText? with
    | none =>
      constructor
      · intro h
        cases h
        apply hnone.mp ht
      · intro h
        rw [h.fault_of_pattern]
    | some text =>
      simp only [reduceCtorEq, false_iff]
      intro h
      rw [h.fault_of_pattern, ← hnone, ht] at h
      cases h
  | membership =>
    have hnone := f.operand.members?_eq_none_iff
    cases hm : f.operand.members? with
    | none =>
      constructor
      · intro h
        cases h
        apply hnone.mp hm
      · intro h
        rw [h.fault_of_membership]
    | some values =>
      simp only [reduceCtorEq, false_iff]
      intro h
      rw [h.fault_of_membership, ← hnone, hm] at h
      cases h
  | range =>
    rw [← Operand.bounds_eq_error_iff]
    cases f.operand.bounds <;> simp

/-- The errors of filters without a clause: the first that applies of an unknown tag, a bare
field without an alias, and an operand that the operator cannot take. -/
theorem ofFilter_eq_error_iff
    (operators : Operators) (rootAlias? : Option String) (f : Filter) (e : Error) :
  ofFilter operators rootAlias? f = .error e
    ↔ (∃ tag, f.HasUnknownTag operators tag ∧ e = .unknownOperator f.field.text tag)
      ∨ (∀ tag, ¬ f.HasUnknownTag operators tag) ∧ f.IsStranded rootAlias? ∧ e = .missingAlias
      ∨ (∀ tag, ¬ f.HasUnknownTag operators tag) ∧ ¬ f.IsStranded rootAlias?
        ∧ ∃ fault, f.IsMisfit operators fault ∧ e = .operand f.field.text fault
  := by
  have hop := operators.operatorOf_eq_error_iff f
  have hqualify := f.field.qualify_eq_error_iff rootAlias?
  unfold ofFilter Filter.IsMisfit
  cases ho : operators.operatorOf f.field.text with
  | error e' =>
    obtain ⟨tag, htag, rfl⟩ := (hop e').mp ho
    have hunique : ∀ other, f.HasUnknownTag operators other → other = tag := by
      intro other hother
      have h := hother.1.symm.trans htag.1
      cases h
      rfl
    constructor
    · intro h
      cases h
      exact .inl ⟨tag, htag, rfl⟩
    · rintro (⟨other, hother, rfl⟩ | ⟨hnone, -⟩ | ⟨hnone, -⟩)
      · rw [hunique other hother]
      · cases hnone tag htag
      · cases hnone tag htag
  | ok op =>
    have hknown : ∀ tag, ¬ f.HasUnknownTag operators tag := by
      intro tag htag
      have h := (hop _).mpr ⟨tag, htag, rfl⟩
      rw [ho] at h
      cases h
    simp only [hknown, not_false_eq_true, implies_true, true_and, false_and, exists_false,
      false_or]
    cases hq : f.field.qualify rootAlias? with
    | error e' =>
      obtain ⟨hbare, hlacks, rfl⟩ := (hqualify e').mp hq
      have hstranded : f.IsStranded rootAlias? := ⟨hbare, hlacks⟩
      simp [hstranded, eq_comm]
    | ok column =>
      have hresolved : ¬ f.IsStranded rootAlias? := by
        rintro ⟨hbare, hlacks⟩
        have h := (hqualify _).mpr ⟨hbare, hlacks, rfl⟩
        rw [hq] at h
        cases h
      simp only [hresolved, false_and, false_or, not_false_eq_true, true_and, Except.ok.injEq,
        exists_eq_left', ← ofOperand_eq_error_iff column op f, mapError_eq_error_iff]

end Clause

end Shortlist
