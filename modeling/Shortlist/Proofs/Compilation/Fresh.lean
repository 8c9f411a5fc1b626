import Shortlist.Proofs.Compilation.Spelling

/-!
# Criteria on fresh queries

A fresh query holds no predicates, parameters or order terms, so once criteria were compiled
onto it, whatever it holds is what the criteria say, and it names every parameter once.
-/

namespace Shortlist

/-- What there is to know of a query that criteria were compiled to, under the operators of a
table and from a fresh query. -/
structure Criteria.CompiledTo (criteria : Criteria) (operators : Operators) (q q' : Query) :
    Prop where
  rest : q' = { q with
    predicates := q'.predicates
    parameters := q'.parameters
    order := q'.order
    grouping? := criteria.grouping?.map (·.text)
    limit? := criteria.offset?.map fun _ => criteria.items.toUInt64
    offset? := criteria.offset? }
  predicates : List.Forall₂ (Filter.SaidBy operators q.rootAlias? q'.parameter?) criteria.kept
    q'.predicates
  order : OrderTerm.Of q.rootAlias? criteria.order q'.order
  distinct : q'.named.Nodup
  bound : ∀ name ∈ q'.named, (q'.parameter? name).isSome

/-- The predicates of clauses name the parameters the clauses bind. -/
theorem Clause.Of.parameters_eq
    {operators : Operators} {rootAlias? : Option String} {fs : List Filter}
    {clauses : List Clause} (h : Of operators rootAlias? fs clauses) :
  (clauses.map (·.predicate)).flatMap Predicate.parameters = clauses.flatMap names
  := by
  induction h with
  | nil => rfl
  | cons hf _ ih =>
    obtain ⟨op, column, -, -, hc⟩ := (ofFilter_eq_ok_iff ..).mp hf
    rw [List.map_cons, List.flatMap_cons, List.flatMap_cons, ih,
      parameters_predicate_of_ofOperand hc]

/-- A query that comes out of a compilation onto a fresh query holds what the criteria say. -/
theorem Compilation.compiledTo_of_build_eq_ok
    {dialect : Dialect} {table : String} {rootAlias? : Option String} {q q' : Query}
    (hselect : Query.select dialect table rootAlias? = .ok q) {criteria : Criteria}
    {operators : Operators}
    (h : ((start q criteria).setOperators operators).build = .ok q') :
  criteria.CompiledTo operators q q'
  := by
  obtain ⟨clauses, terms, hclauses, hnodup, hfree, hterms, hq'⟩ := (build_eq_ok_iff rfl q').mp h
  change q' = q.completed criteria clauses terms at hq'
  rw [← hclauses.names_eq] at hnodup hfree
  have hsaid : List.Forall₂ (Filter.SaidBy operators q.rootAlias? q'.parameter?) criteria.kept
      (clauses.map (·.predicate)) := by
    apply hclauses.saidBy
    intro b hb
    rw [hq']
    apply Query.parameter?_completed_of_mem hnodup (fun name hname => (hfree name hname).2) hb
  have hbound := Query.isSome_of_mem_named_completed hselect terms hsaid
  obtain ⟨hpredicates, horder, -⟩ := Query.completed_of_select hselect criteria clauses terms
  rw [← hq'] at hbound hpredicates horder
  constructor
  · obtain ⟨-, -, hq⟩ := Query.select_eq_ok hselect
    have hnone : q.grouping? = none ∧ q.limit? = none ∧ q.offset? = none := by
      rw [hq]
      exact ⟨rfl, rfl, rfl⟩
    rw [hq', Query.completed, hnone.1, hnone.2.1, hnone.2.2, Option.or_none, Option.or_none,
      Option.or_none]
    rfl
  · rw [hpredicates]
    exact hsaid
  · rw [horder]
    exact hterms
  · rw [Query.named, hpredicates, hclauses.parameters_eq]
    exact hnodup
  · exact hbound

end Shortlist
