import Shortlist.Proofs.Compilation.Build

/-!
# The meaning of a completed build

All filters of a build share one list of parameters, and the names of parameters are not
one-to-one with fields.  Nevertheless every predicate that a build adds still says what its
own filter says when it is read against the parameters at the end of the build: a parameter is
bound once, so what an earlier filter has bound is never bound anew.
-/

namespace Shortlist

/-- A completed query keeps the values of the parameters it had. -/
theorem Query.parameter?_completed_of_eq_some
    {q : Query} {name : String} {v : Value} (h : q.parameter? name = some v)
    (criteria : Criteria) (clauses : List Clause) (terms : List (String × Direction)) :
  (q.completed criteria clauses terms).parameter? name = some v
  := by
  apply (Keyed.get?_append ..).trans
  rw [show Keyed.get? name q.parameters = some v from h, Option.some_or]

/-- A completed query has the values its clauses bind, when no parameter is bound twice. -/
theorem Query.parameter?_completed_of_mem
    {q : Query} {clauses : List Clause} (distinct : (clauses.flatMap Clause.names).Nodup)
    (fresh : ∀ name ∈ clauses.flatMap Clause.names, q.isBound name = false)
    {b : String × Value} (h : b ∈ clauses.flatMap (·.bindings)) (criteria : Criteria)
    (terms : List (String × Direction)) :
  (q.completed criteria clauses terms).parameter? b.1 = some b.2
  := by
  rw [← Clause.keys_bindings] at distinct fresh
  have hnone : Keyed.get? b.1 q.parameters = none := by
    simpa [isBound, parameter?] using fresh b.1 (List.mem_map_of_mem h)
  apply (Keyed.get?_append ..).trans
  rw [hnone, Option.none_or]
  apply (Keyed.get?_eq_some_iff distinct b.1 b.2).mpr h

/-- What holds of a filter and the predicate of its clause, wherever its bindings are kept, holds
of all filters when the bindings of all clauses are kept. -/
theorem Clause.Of.forall₂_predicate
    {operators : Operators} {rootAlias? : Option String} {value? : String → Option Value}
    {fs : List Filter} {clauses : List Clause} (h : Of operators rootAlias? fs clauses)
    (kept : ∀ b ∈ clauses.flatMap (·.bindings), value? b.1 = some b.2)
    {R : Filter → Predicate → Prop}
    (hR : ∀ f clause, ofFilter operators rootAlias? f = .ok clause →
      (∀ b ∈ clause.bindings, value? b.1 = some b.2) → R f clause.predicate) :
  List.Forall₂ R fs (clauses.map (·.predicate))
  := by
  induction h with
  | nil => apply List.Forall₂.nil
  | cons hf _ ih =>
    rw [List.flatMap_cons, List.forall_mem_append] at kept
    apply List.Forall₂.cons
    · apply hR _ _ hf kept.1
    · apply ih kept.2

/-- Clauses say what their filters say wherever their bindings are kept. -/
theorem Clause.Of.saidBy
    {operators : Operators} {rootAlias? : Option String} {value? : String → Option Value}
    {fs : List Filter} {clauses : List Clause} (h : Of operators rootAlias? fs clauses)
    (kept : ∀ b ∈ clauses.flatMap (·.bindings), value? b.1 = some b.2) :
  List.Forall₂ (Filter.SaidBy operators rootAlias? value?) fs (clauses.map (·.predicate))
  := by
  apply h.forall₂_predicate kept
  intro f clause hclause hbindings
  apply saidBy_of_ofFilter hclause hbindings

/-- A build that succeeds completes the query with the clauses of the filters, and keeps the
values that these bind. -/
theorem Compilation.exists_clauses_of_build_eq_ok
    {criteria : Criteria} {operators : Operators} {q q' : Query}
    (h : ((start q criteria).setOperators operators).build = .ok q') :
  ∃ clauses terms, q' = q.completed criteria clauses terms
    ∧ OrderTerm.Of q.rootAlias? criteria.order terms
    ∧ Clause.Of operators q.rootAlias? criteria.kept clauses
    ∧ ∀ b ∈ clauses.flatMap (·.bindings), q'.parameter? b.1 = some b.2
  := by
  obtain ⟨clauses, terms, hclauses, hnodup, hfree, hterms, rfl⟩ := (build_eq_ok_iff rfl q').mp h
  rw [← hclauses.names_eq] at hnodup hfree
  use clauses, terms, rfl, hterms, hclauses
  intro b hb
  apply Query.parameter?_completed_of_mem hnodup (fun name hname => (hfree name hname).2) hb

/-- A build that succeeds completes the query, and the predicate of each clause says what its
filter says under the parameters of the completed query. -/
theorem Compilation.exists_saidBy_of_build_eq_ok
    {criteria : Criteria} {operators : Operators} {q q' : Query}
    (h : ((start q criteria).setOperators operators).build = .ok q') :
  ∃ clauses terms, q' = q.completed criteria clauses terms
    ∧ OrderTerm.Of q.rootAlias? criteria.order terms
    ∧ List.Forall₂ (Filter.SaidBy operators q.rootAlias? q'.parameter?)
        criteria.kept (clauses.map (·.predicate))
  := by
  obtain ⟨clauses, terms, hq', hterms, hclauses, hkept⟩ := exists_clauses_of_build_eq_ok h
  use clauses, terms, hq', hterms
  apply hclauses.saidBy hkept

/-- A build that succeeds adds one predicate for each filter that is not left out, in the
order of the filters, and each says what its own filter says under the parameters of the
completed query.  The parameters the query had keep their values. -/
theorem saidBy_of_build_eq_ok
    (criteria : Criteria) (operators : Operators) (q q' : Query)
    (h : ((Compilation.start q criteria).setOperators operators).build = .ok q') :
  (∃ added, q'.predicates = q.predicates ++ added
      ∧ List.Forall₂ (Filter.SaidBy operators q.rootAlias? q'.parameter?) criteria.kept added)
    ∧ ∀ name v, q.parameter? name = some v → q'.parameter? name = some v
  := by
  obtain ⟨clauses, terms, rfl, -, hsaid⟩ := Compilation.exists_saidBy_of_build_eq_ok h
  constructor
  · use clauses.map (·.predicate), rfl, hsaid
  · intro name v hv
    apply Query.parameter?_completed_of_eq_some hv

/-- An author given as an entity, a range, a null operand that is left out, and a pattern with a
quote, on a query that has a parameter of its own. -/
theorem saidBy_of_build_eq_ok_posts :
  ∃ q q' : Query, q.predicates = [.compare "post.id" .gte "id"] ∧ q.parameters = [("id", .int 3)]
    ∧ ∃ criteria : Criteria, criteria.kept.map (·.field.text) = ["author.name", "price", "title"]
    ∧ ((Compilation.start q criteria).setOperators
        (.ofList [("price", "between"), ("title", "like")])).build = .ok q'
    ∧ q'.parameters = [("id", .int 3), ("author_name", .string "O'Neil"),
        ("price_from", .int 1), ("price_to", .int 5)]
    ∧ q'.predicates = [.compare "post.id" .gte "id", .compare "author.name" .eq "author_name",
        .between "post.price" "price_from" "price_to", .like "post.title" false "'%it''s%'"]
    ∧ (∃ added, q'.predicates = q.predicates ++ added
      ∧ List.Forall₂ (Filter.SaidBy (.ofList [("price", "between"), ("title", "like")])
          q.rootAlias? q'.parameter?) criteria.kept added)
    ∧ ∀ name v, q.parameter? name = some v → q'.parameter? name = some v
  := by
  refine ⟨⟨.sqlite, "posts", some "post", [], [], [.compare "post.id" .gte "id"],
    [("id", .int 3)], [], none, none, none⟩, _, rfl, rfl,
    ⟨10, 2, [⟨⟨"created", by decide⟩, .descending⟩], none,
      [⟨⟨"author.name", by decide⟩, .entity (.string "O'Neil")⟩,
        ⟨⟨"price", by decide⟩, .list [.int 1, .int 5]⟩,
        ⟨⟨"deleted", by decide⟩, .null⟩,
        ⟨⟨"title", by decide⟩, .string "it's"⟩], .empty, true⟩, rfl, rfl, rfl, rfl, ?_⟩
  apply saidBy_of_build_eq_ok
  rfl

end Shortlist
