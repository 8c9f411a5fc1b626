import Shortlist.Proofs.Clause.Parameters

/-!
# Operands that are bound

Comparisons and ranges bind what they are given, and their predicates hold nothing but the names
it is bound to.  So the clauses of two filters that differ in such an operand differ in bound
values alone.
-/

namespace Shortlist

/-- The operator of the filter is a comparison or a range. -/
def Filter.BindsOperand (operators : Operators) (f : Filter) : Prop :=
  ∃ op, operators.operatorOf f.field.text = .ok op ∧ (op.kind = .comparison ∨ op.kind = .range)

/-- The second filter is the first with another operand, which is given only where the operator
binds it.  Where nulls are left out, either both operands are null or none is. -/
structure Filter.Rebound (operators : Operators) (skipNull : Bool) (f f' : Filter) : Prop where
  field : f'.field = f.field
  operand : f'.operand = f.operand ∨ f.BindsOperand operators
  isNull : skipNull = true → f'.operand.isNull = f.operand.isNull

/-- The predicate of a comparison or a range does not show the operand. -/
theorem Clause.predicate_eq_of_ofOperand {column : String} {op : Operator} {f f' : Filter}
    {c c' : Clause} (field : f'.field = f.field)
    (kind : op.kind = .comparison ∨ op.kind = .range)
    (h : ofOperand column op f = .ok c) (h' : ofOperand column op f' = .ok c') :
  c'.predicate = c.predicate
  := by
  rw [ofOperand] at h h'
  rcases kind with hk | hk
  · simp only [hk] at h h'
    cases h
    cases h'
    rw [field]
  · simp only [hk] at h h'
    split at h <;> cases h
    split at h' <;> cases h'
    rw [field]

namespace Filter.Rebound

variable {operators : Operators} {rootAlias? : Option String} {skipNull : Bool} {f f' : Filter}
  {c c' : Clause}

theorem parameters_eq (h : f.Rebound operators skipNull f') :
  f'.parameters operators = f.parameters operators
  := by
  unfold parameters parametersFor
  rw [h.field]

theorem eq_of_operand_eq (h : f.Rebound operators skipNull f') (operand : f'.operand = f.operand) :
  f' = f
  := by
  obtain ⟨field, v⟩ := f
  obtain ⟨field', v'⟩ := f'
  obtain rfl : field' = field := h.field
  obtain rfl : v' = v := operand
  rfl

theorem predicate_eq (h : f.Rebound operators skipNull f')
    (hc : Clause.ofFilter operators rootAlias? f = .ok c)
    (hc' : Clause.ofFilter operators rootAlias? f' = .ok c') :
  c'.predicate = c.predicate
  := by
  rcases h.operand with operand | ⟨op, hop, kind⟩
  · rw [h.eq_of_operand_eq operand] at hc'
    rw [Except.ok.inj (hc'.symm.trans hc)]
  · obtain ⟨op₁, column, hop₁, hcolumn, hc⟩ := (Clause.ofFilter_eq_ok_iff ..).mp hc
    obtain ⟨op₂, column', hop₂, hcolumn', hc'⟩ := (Clause.ofFilter_eq_ok_iff ..).mp hc'
    rw [h.field] at hop₂ hcolumn'
    obtain rfl : op = op₁ := Except.ok.inj (hop.symm.trans hop₁)
    obtain rfl : op = op₂ := Except.ok.inj (hop.symm.trans hop₂)
    obtain rfl : column = column' := Except.ok.inj (hcolumn.symm.trans hcolumn')
    apply Clause.predicate_eq_of_ofOperand h.field kind hc hc'

/-- The clauses bind the same to a parameter unless the operands differ and the filters need it. -/
theorem get?_bindings_eq (h : f.Rebound operators skipNull f')
    (hc : Clause.ofFilter operators rootAlias? f = .ok c)
    (hc' : Clause.ofFilter operators rootAlias? f' = .ok c') {name : String}
    (hname : f'.operand = f.operand ∨ name ∉ f.parameters operators) :
  Keyed.get? name c'.bindings = Keyed.get? name c.bindings
  := by
  rcases hname with operand | hname
  · rw [h.eq_of_operand_eq operand] at hc'
    rw [Except.ok.inj (hc'.symm.trans hc)]
  · have hnone (b : Clause) (hb : b.names = f.parameters operators) :
        Keyed.get? name b.bindings = none := by
      rw [Keyed.get?_eq_none_iff]
      change name ∉ b.names
      rwa [hb]
    rw [hnone c (Clause.names_of_ofFilter hc),
      hnone c' ((Clause.names_of_ofFilter hc').trans h.parameters_eq)]

end Filter.Rebound

end Shortlist
