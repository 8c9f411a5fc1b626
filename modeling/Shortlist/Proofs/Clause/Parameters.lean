import Mathlib.Data.List.Nodup
import Shortlist.Proofs.Clause.Meaning

/-!
# Parameters of filters

Which parameters a filter needs is decided by its operator alone: one for a comparison, two
for a range and none otherwise.  They are the parameters its clause binds, and adding a clause
to a query that has bound none of them adds a predicate and bindings at the end.
-/

namespace Shortlist

/-- The parameters a filter needs under an operator. -/
def Filter.parametersFor (f : Filter) (op : Operator) : List String :=
  match op.kind with
  | .comparison => [f.field.parameter]
  | .range => [f.field.lowParameter, f.field.highParameter]
  | .nullCheck | .pattern | .membership => []

/-- The parameters a filter needs, none when it has no operator. -/
def Filter.parameters (operators : Operators) (f : Filter) : List String :=
  match operators.operatorOf f.field.text with
  | .ok op => f.parametersFor op
  | .error _ => []

/-- The query with clauses added, the parameters of which are not looked up. -/
def Query.withClauses (q : Query) (clauses : List Clause) : Query :=
  { q with
    predicates := q.predicates ++ clauses.map (·.predicate)
    parameters := q.parameters ++ clauses.flatMap (·.bindings) }

/-- The two parameters of a range are different ones. -/
theorem Field.lowParameter_ne_highParameter (f : Field) :
  f.lowParameter ≠ f.highParameter
  := by
  intro h
  have hlength := congrArg String.length h
  simp only [lowParameter, highParameter, String.length_append, Nat.add_left_cancel_iff] at hlength
  exact absurd hlength (by decide)

/-- No operator needs a parameter twice. -/
theorem Filter.parametersFor_nodup (f : Filter) (op : Operator) :
  (f.parametersFor op).Nodup
  := by
  rw [parametersFor]
  cases op.kind with
  | range => simp [f.field.lowParameter_ne_highParameter]
  | _ => simp

theorem Filter.parameters_nodup (operators : Operators) (f : Filter) :
  (f.parameters operators).Nodup
  := by
  rw [parameters]
  cases operators.operatorOf f.field.text with
  | ok op => apply parametersFor_nodup
  | error _ => apply List.nodup_nil

namespace Clause

/-- A clause names the parameters its filter needs under the operator. -/
theorem names_of_ofOperand {column : String} {op : Operator} {f : Filter} {c : Clause}
    (h : ofOperand column op f = .ok c) :
  c.names = f.parametersFor op
  := by
  rw [ofOperand] at h
  rw [Filter.parametersFor]
  cases hk : op.kind with
  | comparison =>
    simp only [hk] at h
    cases h
    rfl
  | nullCheck =>
    simp only [hk] at h
    cases h
    rfl
  | pattern =>
    simp only [hk] at h
    split at h <;> cases h
    rfl
  | membership =>
    simp only [hk] at h
    split at h <;> cases h
    rfl
  | range =>
    simp only [hk] at h
    split at h <;> cases h
    rfl

/-- The predicate of a clause names the parameters the clause binds. -/
theorem parameters_predicate_of_ofOperand
    {column : String} {op : Operator} {f : Filter} {c : Clause}
    (h : ofOperand column op f = .ok c) :
  c.predicate.parameters = c.names
  := by
  rw [ofOperand] at h
  split at h
  · cases h
    rfl
  · cases h
    rfl
  · split at h <;> cases h
    rfl
  · split at h <;> cases h
    rfl
  · split at h <;> cases h
    rfl

/-- A clause binds the parameters its filter needs. -/
theorem names_of_ofFilter
    {operators : Operators} {rootAlias? : Option String} {f : Filter} {c : Clause}
    (h : ofFilter operators rootAlias? f = .ok c) :
  c.names = f.parameters operators
  := by
  obtain ⟨op, column, hop, -, hc⟩ := (ofFilter_eq_ok_iff ..).mp h
  rw [names_of_ofOperand hc, Filter.parameters, hop]

/-- Clauses bind the parameters they name. -/
theorem keys_bindings (clauses : List Clause) :
  Keyed.keys (clauses.flatMap (·.bindings)) = clauses.flatMap names
  := List.map_flatMap

/-- The bound parameters after clauses were added are those before and those of the
clauses. -/
theorem isBound_withClauses (q : Query) (clauses : List Clause) (name : String) :
  (q.withClauses clauses).isBound name = true
    ↔ q.isBound name = true ∨ name ∈ clauses.flatMap names
  := by
  rw [← keys_bindings, Query.isBound, Query.isBound, Query.parameter?, Query.parameter?,
    Keyed.get?_isSome, Keyed.get?_isSome, Query.withClauses, Keyed.keys, List.map_append,
    List.mem_append]
  rfl

/-- A clause with parameters that have no value is added as it is. -/
theorem addTo_of_fresh {c : Clause} {q : Query} (distinct : c.names.Nodup)
    (fresh : ∀ name ∈ c.names, q.isBound name = false) :
  c.addTo q = q.withClauses [c]
  := by
  have hfresh : ∀ name ∈ Keyed.keys c.bindings, name ∉ Keyed.keys q.parameters := by
    intro name hname
    apply (q.isBound_eq_false_iff name).mp (fresh name hname)
  rw [addTo, Query.foldl_bind, Keyed.putEach_of_fresh hfresh distinct]
  simp [Query.addPredicate, Query.withClauses]

end Clause

theorem Query.withClauses_nil (q : Query) :
  q.withClauses [] = q
  := by simp [withClauses]

/-- Clauses may be added in two portions. -/
theorem Query.withClauses_append (q : Query) (cs ds : List Clause) :
  (q.withClauses cs).withClauses ds = q.withClauses (cs ++ ds)
  := by simp [withClauses]

end Shortlist
