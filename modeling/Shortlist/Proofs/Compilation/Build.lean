import Shortlist.Proofs.Compilation.Filters

/-!
# Completed builds

A build without handlers that succeeds leaves a query of a fixed form: what it held before,
one clause for each filter that is not left out, one order term for each order term of the
criteria, the grouping and the page.  `build_eq_ok_iff` says exactly when there is such a
query, and all that is known of a completed build is read off it.
-/

namespace Shortlist

/-- The order terms that terms of criteria become on a query with the given root alias. -/
def OrderTerm.Of (rootAlias? : Option String) :
    List OrderTerm → List (String × Direction) → Prop :=
  List.Forall₂ fun t term => t.field.qualify rootAlias? = .ok term.1 ∧ term.2 = t.direction

/-- The query with clauses and order terms added, and the grouping and the page of the
criteria in place of its own. -/
def Query.completed
    (q : Query) (criteria : Criteria) (clauses : List Clause)
    (terms : List (String × Direction)) : Query :=
  { q.withClauses clauses with
    order := q.order ++ terms
    grouping? := (criteria.grouping?.map (·.text)).or q.grouping?
    limit? := (criteria.offset?.map fun _ => criteria.items.toUInt64).or q.limit?
    offset? := criteria.offset?.or q.offset? }

namespace Compilation

/-! ### The order -/

/-- The compilation with order terms added to its query. -/
def withOrder (c : Compilation) (terms : List (String × Direction)) : Compilation :=
  { c with query := { c.query with order := c.query.order ++ terms } }

theorem addOrderTerm_eq_done_iff (c : Compilation) (t : OrderTerm) (c' : Compilation) :
  c.addOrderTerm t = .done c'
    ↔ ∃ column, t.field.qualify c.query.rootAlias? = .ok column
        ∧ c' = c.withOrder [(column, t.direction)]
  := by
  rw [addOrderTerm]
  cases t.field.qualify c.query.rootAlias? with
  | error e => simp [Progress.stop, Progress.done]
  | ok column =>
    simp only [Progress.done, Progress.mk.injEq, and_true, Except.ok.injEq, exists_eq_left',
      withOrder, Query.addOrder, eq_comm (b := c')]

/-- A run over order terms adds all of them exactly when each can be qualified. -/
theorem each_addOrderTerm_eq_done_iff (c : Compilation) (ts : List OrderTerm) (c' : Compilation) :
  Progress.each addOrderTerm c ts = .done c'
    ↔ ∃ terms, OrderTerm.Of c.query.rootAlias? ts terms ∧ c' = c.withOrder terms
  := by
  induction ts generalizing c with
  | nil =>
    constructor
    · intro h
      cases h
      exact ⟨[], .nil, by simp [withOrder]⟩
    · rintro ⟨_, hterms, rfl⟩
      cases hterms
      simp [withOrder]
  | cons t ts ih =>
    rw [Progress.each_cons, Progress.andThen_eq_done_iff]
    constructor
    · rintro ⟨d, hd, hrest⟩
      obtain ⟨column, hcolumn, rfl⟩ := (addOrderTerm_eq_done_iff c t d).mp hd
      obtain ⟨terms, hterms, rfl⟩ := (ih _).mp hrest
      use (column, t.direction) :: terms, .cons ⟨hcolumn, rfl⟩ hterms
      simp [withOrder]
    · rintro ⟨_, hterms, rfl⟩
      cases hterms with
      | @cons _ term _ terms hterm hterms =>
        obtain ⟨column, direction⟩ := term
        obtain ⟨hcolumn, rfl⟩ := hterm
        use c.withOrder [(column, t.direction)]
        constructor
        · apply (addOrderTerm_eq_done_iff ..).mpr
          use column, hcolumn
        · apply (ih _).mpr
          use terms, hterms
          simp [withOrder]

/-! ### All phases -/

/-- What the last two phases make of a query to which clauses and order terms were added. -/
theorem query_setPage_setGrouping
    (c : Compilation) (clauses : List Clause) (terms : List (String × Direction)) :
  ((c.withFilters c.criteria.kept clauses).withOrder terms).setGrouping.setPage.query
    = c.query.completed c.criteria clauses terms
  := by
  rw [setGrouping, setPage, Query.completed]
  cases hg : c.criteria.grouping? <;> cases ho : c.criteria.offset? <;>
    simp [withFilters, withOrder, hg, ho, Query.group, Query.setOffset, Query.setLimit,
      Query.withClauses]

/-- A run of all phases finishes when the filters and the order do. -/
theorem run_eq_done_iff (c c' : Compilation) :
  c.run = .done c'
    ↔ ∃ d e, c.addFilters = .done d ∧ d.addOrder = .done e ∧ c' = e.setGrouping.setPage
  := by
  rw [run]
  simp only [Progress.andThen_eq_done_iff]
  constructor
  · rintro ⟨e, ⟨d, hd, he⟩, h⟩
    cases h
    exact ⟨d, e, hd, he, rfl⟩
  · rintro ⟨d, e, hd, he, rfl⟩
    exact ⟨e, ⟨d, hd, he⟩, rfl⟩

theorem build_eq_ok_iff_run (c : Compilation) (q : Query) :
  c.build = .ok q ↔ ∃ c', c.run = .done c' ∧ q = c'.query
  := by
  rw [build]
  simp only [← Progress.result_eq_ok_iff]
  cases c.run.result <;> simp [Except.map, eq_comm]

theorem skips_of_mem_kept {c : Compilation} {f : Filter} (h : f ∈ c.criteria.kept) :
  c.skips f = false
  := by
  rw [← Bool.not_eq_true']
  apply (List.mem_filter.mp h).2

/-- A build without handlers succeeds exactly when every filter that is not left out has a
clause, no parameter is needed twice, the parameters needed are free and every order term can
be qualified. -/
theorem build_eq_ok_iff {c : Compilation} (handlers : c.handlers = .empty) (q : Query) :
  c.build = .ok q
    ↔ ∃ clauses terms, Clause.Of c.operators c.query.rootAlias? c.criteria.kept clauses
        ∧ (c.criteria.kept.flatMap (·.parameters c.operators)).Nodup
        ∧ (∀ name ∈ c.criteria.kept.flatMap (·.parameters c.operators), c.IsFree name)
        ∧ OrderTerm.Of c.query.rootAlias? c.criteria.order terms
        ∧ q = c.query.completed c.criteria clauses terms
  := by
  have hkept : ∀ f ∈ c.criteria.kept, c.skips f = false := fun _ => skips_of_mem_kept
  rw [build_eq_ok_iff_run]
  simp only [run_eq_done_iff, addFilters_eq_each_kept, each_addFilter_eq_done_iff handlers hkept]
  constructor
  · rintro ⟨_, ⟨_, e, ⟨clauses, hclauses, hnodup, hfree, rfl⟩, he, rfl⟩, rfl⟩
    obtain ⟨terms, hterms, rfl⟩ := (each_addOrderTerm_eq_done_iff ..).mp he
    use clauses, terms, hclauses, hnodup, hfree, hterms
    apply query_setPage_setGrouping
  · rintro ⟨clauses, terms, hclauses, hnodup, hfree, hterms, rfl⟩
    refine ⟨_, ⟨_, (c.withFilters c.criteria.kept clauses).withOrder terms,
      ⟨clauses, hclauses, hnodup, hfree, rfl⟩, ?_, rfl⟩, ?_⟩
    · apply (each_addOrderTerm_eq_done_iff ..).mpr
      use terms, hterms
    · symm
      apply query_setPage_setGrouping

end Compilation

end Shortlist
