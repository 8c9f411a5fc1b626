import Shortlist.Proofs.Compilation.Failure
import Shortlist.Proofs.Query.Rendering

/-!
# Sessions

One query can be compiled onto again and again: by any number of compilations, with phases in
any order and repeated, and after calls that failed.  Every compilation forgets what the ones
before it claimed, but none binds a parameter that the query has bound.  So the parameters of
the query only grow at the end, and every parameter that a predicate names stays bound.
-/

namespace Shortlist

namespace Query

/-- The query with another listing. -/
def withListing (q : Query) (l : Listing) : Query :=
  { q with order := l.order, grouping? := l.grouping?, limit? := l.limit?, offset? := l.offset? }

/-- Clauses that bind what their predicates name keep the property, and it does not depend on the
listing. -/
structure IsKept (P : Query → Prop) : Prop where
  withClauses : ∀ q clauses, (∀ c ∈ clauses, c.predicate.parameters = c.names) → P q →
    P (q.withClauses clauses)
  withListing : ∀ q l, P q → P (q.withListing l)

/-- The second query has the parameters and predicates of the first, and after them parameters
and predicates that name no others than these new parameters. -/
structure ExtendedBy (q r : Query) : Prop where
  exists_append : ∃ bindings predicates, r.parameters = q.parameters ++ bindings
    ∧ r.predicates = q.predicates ++ predicates
    ∧ ∀ name ∈ predicates.flatMap Predicate.parameters, name ∈ Keyed.keys bindings

/-- Every parameter the predicates name is bound. -/
def IsClosed (q : Query) : Prop :=
  ∀ name ∈ q.named, q.isBound name = true

namespace ExtendedBy

variable {q r s : Query}

/-- Changes to the rest of a query do not count. -/
theorem of_eq (hparameters : r.parameters = q.parameters)
    (hpredicates : r.predicates = q.predicates) :
  q.ExtendedBy r
  := ⟨[], [], by simp [hparameters], by simp [hpredicates], by simp⟩

/-- What extends an extension extends the query itself. -/
theorem trans (h : q.ExtendedBy r) (h' : r.ExtendedBy s) :
  q.ExtendedBy s
  := by
  obtain ⟨bindings, predicates, hbindings, hpredicates, hnamed⟩ := h
  obtain ⟨bindings', predicates', hbindings', hpredicates', hnamed'⟩ := h'
  use bindings ++ bindings', predicates ++ predicates'
  constructor
  · rw [hbindings', hbindings, List.append_assoc]
  · constructor
    · rw [hpredicates', hpredicates, List.append_assoc]
    · rw [List.flatMap_append, Keyed.keys, List.map_append, List.forall_mem_append]
      constructor
      · intro name hname
        apply List.mem_append_left _ (hnamed name hname)
      · intro name hname
        apply List.mem_append_right _ (hnamed' name hname)

/-- The parameters of a query come first in every query that extends it. -/
theorem prefix_parameters (h : q.ExtendedBy r) :
  q.parameters <+: r.parameters
  := by
  obtain ⟨bindings, -, hbindings, -, -⟩ := h
  rw [hbindings]
  apply List.prefix_append

/-- Extending a query leaves its parameters bound. -/
theorem isClosed (h : q.ExtendedBy r) (closed : q.IsClosed) :
  r.IsClosed
  := by
  obtain ⟨bindings, predicates, hbindings, hpredicates, hnamed⟩ := h
  have hbound (name : String) :
      r.isBound name = true ↔ q.isBound name = true ∨ name ∈ Keyed.keys bindings := by
    rw [isBound, isBound, parameter?, parameter?, Keyed.get?_isSome, Keyed.get?_isSome,
      hbindings, Keyed.keys, List.map_append, List.mem_append]
    rfl
  rw [IsClosed, named, hpredicates, List.flatMap_append, List.forall_mem_append]
  constructor
  · intro name hname
    apply (hbound name).mpr (.inl (closed name hname))
  · intro name hname
    apply (hbound name).mpr (.inr (hnamed name hname))

end ExtendedBy

/-- Clauses of filters extend a query. -/
theorem extendedBy_withClauses
    (q : Query) {clauses : List Clause}
    (h : ∀ c ∈ clauses, c.predicate.parameters = c.names) :
  q.ExtendedBy (q.withClauses clauses)
  := by
  use clauses.flatMap (·.bindings), clauses.map (·.predicate), rfl, rfl
  intro name hname
  rw [Clause.keys_bindings]
  rw [List.flatMap_map] at hname
  obtain ⟨c, hc, hname⟩ := List.mem_flatMap.mp hname
  apply List.mem_flatMap.mpr ⟨c, hc, _⟩
  rw [← h c hc]
  apply hname

/-- Whatever a compilation adds to a query extends it. -/
theorem isKept_extendedBy (q : Query) :
  IsKept q.ExtendedBy
  where
  withClauses r _ h hr := hr.trans (r.extendedBy_withClauses h)
  withListing _ _ hr := hr.trans (.of_eq rfl rfl)

/-- A closed query has a statement. -/
theorem exists_render_of_isClosed {q : Query} (h : q.IsClosed) :
  ∃ r, q.render = .ok r
  := ⟨_, q.render_of_bound h⟩

end Query

namespace Compilation

/-- What can be done with a query by compilations without handlers: begin a compilation, choose
its operators, run one of its phases or all of them. -/
inductive Call where
  | start (criteria : Criteria)
  | setOperators (operators : Operators)
  | addFilters
  | addOrder
  | setGrouping
  | setPage
  | build

/-- The compilation after a call, whether the call fails or not.  A compilation that begins
takes over the query and nothing else. -/
def perform (c : Compilation) : Call → Compilation
  | .start criteria => start c.query criteria
  | .setOperators operators => c.setOperators operators
  | .addFilters => c.addFilters.state
  | .addOrder => c.addOrder.state
  | .setGrouping => c.setGrouping
  | .setPage => c.setPage
  | .build => c.run.state

/-- The compilation after a sequence of calls. -/
def performAll (c : Compilation) (calls : List Call) : Compilation :=
  calls.foldl perform c

/-- The compilation has no handlers, and its query has the property. -/
structure Keeps (P : Query → Prop) (c : Compilation) : Prop where
  handlers : c.handlers = .empty
  query : P c.query

namespace Keeps

variable {P : Query → Prop} {c : Compilation}

/-- A filter keeps the property, also when it fails. -/
theorem addFilter (kept : Query.IsKept P) (h : c.Keeps P) (f : Filter) :
  (c.addFilter f).state.Keeps P
  := by
  have hstep := c.atFilter_addFilter f
  generalize c.addFilter f = p at hstep ⊢
  cases hstep with
  | skipped => exact h
  | handled _ handler_eq =>
    rw [h.handlers] at handler_eq
    cases handler_eq
  | misfit => exact h
  | taken => exact h
  | @added clause _ _ hclause =>
    use h.handlers
    apply kept.withClauses _ _ _ h.query
    rw [List.forall_mem_singleton]
    obtain ⟨op, column, -, -, hc⟩ := (Clause.ofFilter_eq_ok_iff ..).mp hclause
    apply Clause.parameters_predicate_of_ofOperand hc

/-- An order term keeps the property, also when it fails. -/
theorem addOrderTerm (kept : Query.IsKept P) (h : c.Keeps P) (t : OrderTerm) :
  (c.addOrderTerm t).state.Keeps P
  := by
  rw [Compilation.addOrderTerm]
  split
  · exact h
  · exact ⟨h.handlers, kept.withListing c.query ⟨_, _, _, _⟩ h.query⟩

theorem addFilters (kept : Query.IsKept P) (h : c.Keeps P) :
  c.addFilters.state.Keeps P
  := by
  apply Progress.each_state (P := Keeps P)
  · intro d f hd
    apply hd.addFilter kept
  · exact h

theorem addOrder (kept : Query.IsKept P) (h : c.Keeps P) :
  c.addOrder.state.Keeps P
  := by
  apply Progress.each_state (P := Keeps P)
  · intro d t hd
    apply hd.addOrderTerm kept
  · exact h

theorem setGrouping (kept : Query.IsKept P) (h : c.Keeps P) :
  c.setGrouping.Keeps P
  := by
  rw [Compilation.setGrouping]
  split
  · exact h
  · exact ⟨h.handlers, kept.withListing c.query ⟨_, _, _, _⟩ h.query⟩

theorem setPage (kept : Query.IsKept P) (h : c.Keeps P) :
  c.setPage.Keeps P
  := by
  rw [Compilation.setPage]
  split
  · exact h
  · exact ⟨h.handlers, kept.withListing c.query ⟨_, _, _, _⟩ h.query⟩

/-- A run keeps the property, wherever it stops. -/
theorem run (kept : Query.IsKept P) (h : c.Keeps P) :
  c.run.state.Keeps P
  := by
  apply Progress.andThen_state (P := Keeps P)
  · apply Progress.andThen_state (P := Keeps P)
    · apply h.addFilters kept
    · intro d hd
      apply hd.addOrder kept
  · intro d hd
    apply (hd.setGrouping kept).setPage kept

/-- A call keeps the property, also when it fails. -/
theorem perform (kept : Query.IsKept P) (h : c.Keeps P) (call : Call) :
  (c.perform call).Keeps P
  := by
  cases call with
  | start criteria => exact ⟨rfl, h.query⟩
  | setOperators operators => exact ⟨h.handlers, h.query⟩
  | addFilters => apply h.addFilters kept
  | addOrder => apply h.addOrder kept
  | setGrouping => apply h.setGrouping kept
  | setPage => apply h.setPage kept
  | build => apply h.run kept

/-- Calls keep the property, in any number and any order. -/
theorem performAll (kept : Query.IsKept P) (h : c.Keeps P) (calls : List Call) :
  (c.performAll calls).Keeps P
  := by
  induction calls generalizing c with
  | nil => exact h
  | cons call calls ih => exact ih (h.perform kept call)

end Keeps

/-- The compilation has no handlers, and its query extends another. -/
structure Extends (c : Compilation) (q : Query) : Prop where
  handlers : c.handlers = .empty
  extendedBy : q.ExtendedBy c.query

namespace Extends

variable {c : Compilation} {q : Query}

/-- A compilation without handlers extends the query it starts from. -/
theorem refl (handlers : c.handlers = .empty) :
  c.Extends c.query
  := ⟨handlers, .of_eq rfl rfl⟩

theorem keeps (h : c.Extends q) :
  c.Keeps q.ExtendedBy
  := ⟨h.handlers, h.extendedBy⟩

theorem of_keeps (h : c.Keeps q.ExtendedBy) :
  c.Extends q
  := ⟨h.handlers, h.query⟩

theorem run (h : c.Extends q) :
  c.run.state.Extends q
  := of_keeps (h.keeps.run q.isKept_extendedBy)

/-- Calls extend a query further, in any number and any order. -/
theorem performAll (h : c.Extends q) (calls : List Call) :
  (c.performAll calls).Extends q
  := of_keeps (h.keeps.performAll q.isKept_extendedBy calls)

end Extends

/-- Whatever compilations without handlers do with a query, in any order and with calls that
fail, a parameter that was bound keeps its value and its place in every later state.  Where
every parameter the predicates named was bound in the beginning, this stays so, and the query
has a statement. -/
theorem parameters_performAll
    (q : Query) (closed : ∀ name ∈ q.named, q.isBound name = true) (criteria : Criteria)
    (calls later : List Call) :
  ((start q criteria).performAll calls).query.parameters
      <+: ((start q criteria).performAll (calls ++ later)).query.parameters
    ∧ (∀ name ∈ ((start q criteria).performAll calls).query.named,
        ((start q criteria).performAll calls).query.isBound name = true)
    ∧ ∃ r, ((start q criteria).performAll calls).query.render = .ok r
  := by
  have hcalls : ((start q criteria).performAll calls).Extends q := by
    apply Extends.performAll
    apply Extends.refl rfl
  have hlater := (Extends.refl hcalls.handlers).performAll later
  have hclosed : ((start q criteria).performAll calls).query.IsClosed :=
    hcalls.extendedBy.isClosed closed
  constructor
  · have hsplit (c : Compilation) :
        c.performAll (calls ++ later) = (c.performAll calls).performAll later :=
      List.foldl_append
    rw [hsplit]
    apply hlater.extendedBy.prefix_parameters
  · use hclosed
    apply Query.exists_render_of_isClosed hclosed

/-- A session on posts.  The first compilation stops at its second filter, and its filters are
added once more in vain; the second stops at a parameter of the first, until another operator
gives it parameters of its own. -/
theorem parameters_performAll_posts :
  ∃ (q : Query) (first second : Criteria) (calls later : List Call),
    (∀ name ∈ q.named, q.isBound name = true)
      ∧ (start q first).run.failure = some (.unknownOperator "title" "like?")
      ∧ ((start q first).performAll calls).query.named = ["author", "id"]
      ∧ ((start q first).performAll (calls ++ [.start second])).addFilters.failure
          = some (.field "id" (.bound "id"))
      ∧ ((start q first).performAll (calls ++ later)).query.named
          = ["author", "id", "id_from", "id_to"]
      ∧ ((start q first).performAll calls).query.parameters
          <+: ((start q first).performAll (calls ++ later)).query.parameters
      ∧ ∃ r, ((start q first).performAll calls).query.render = .ok r
  := by
  let q : Query := ⟨.postgres, "posts", some "post", [], [], [.compare "post.author" .eq "author"],
    [("author", .string "Ann")], [], none, none, none⟩
  let first : Criteria := ⟨10, 1, [], none,
    [⟨⟨"id", by decide⟩, .int 1⟩, ⟨⟨"title", by decide⟩, .string "a"⟩],
    .ofList [("title", "like?")], true⟩
  let second : Criteria := ⟨10, 1, [], none,
    [⟨⟨"id", by decide⟩, .list [.int 1, .int 5]⟩], .ofList [("id", "gte")], true⟩
  let calls : List Call := [.build, .addFilters]
  let later : List Call :=
    [.start second, .addFilters, .setOperators (.ofList [("id", "between")]), .build]
  have closed : ∀ name ∈ q.named, q.isBound name = true := by decide +kernel
  have h := parameters_performAll q closed first calls later
  exact ⟨q, first, second, calls, later, closed, by decide +kernel, by decide +kernel,
    by decide +kernel, by decide +kernel, h.1, h.2.2⟩

end Compilation

end Shortlist
