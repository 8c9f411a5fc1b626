import Shortlist.Proofs.Compilation.Failure
import Shortlist.Proofs.Lists

/-!
# Filters split over compilations

A compilation remembers which filter claimed a parameter, and one that begins anew on its query
has forgotten it.  But what is claimed is also bound, so nothing depends on this memory except
the wording of a refusal.  Filters that are added by two compilations, one after the other, make
the query that they make in one, or stop at the same filter.
-/

namespace Shortlist

/-- The errors are the same, but where the first names the filter for which a parameter was
bound, the second may say no more than that it is bound. -/
inductive Error.SameButOwner : Error → Error → Prop
  | refl (e : Error) : SameButOwner e e
  | bound (field name owner : String) :
      SameButOwner (.field field (.claimed name owner)) (.field field (.bound name))

/-- Two steps leave states of which the relation holds, and both are finished or both are stopped
by errors that are the same but for owners. -/
inductive Progress.GoAlike {σ τ : Type} (R : σ → τ → Prop) : Progress σ → Progress τ → Prop
  | done {s : σ} {t : τ} (h : R s t) : GoAlike R (.done s) (.done t)
  | stop {s : σ} {t : τ} (h : R s t) {e e' : Error} (he : e.SameButOwner e') :
      GoAlike R (.stop s e) (.stop t e')

namespace Progress.GoAlike

variable {σ τ σ' τ' : Type} {R : σ → τ → Prop} {R' : σ' → τ' → Prop} {p : Progress σ}
  {p' : Progress τ}

theorem andThen (h : p.GoAlike R p') {next : σ → Progress σ} {next' : τ → Progress τ}
    (hnext : ∀ s t, R s t → (next s).GoAlike R (next' t)) :
  (p.andThen next).GoAlike R (p'.andThen next')
  := by
  cases h with
  | done h => apply hnext _ _ h
  | stop h he => exact .stop h he

theorem map (h : p.GoAlike R p') {f : σ → σ'} {f' : τ → τ'} (hf : ∀ s t, R s t → R' (f s) (f' t)) :
  (p.map f).GoAlike R' (p'.map f')
  := by
  cases h with
  | done h => exact .done (hf _ _ h)
  | stop h he => exact .stop (hf _ _ h) he

theorem rel_state (h : p.GoAlike R p') :
  R p.state p'.state
  := by
  cases h with
  | done h => exact h
  | stop h => exact h

theorem failure_eq_none_iff (h : p.GoAlike R p') :
  p.failure = none ↔ p'.failure = none
  := by cases h <;> simp [Progress.done, Progress.stop]

theorem exists_failure (h : p.GoAlike R p') {e : Error} (he : p.failure = some e) :
  ∃ e', p'.failure = some e' ∧ e.SameButOwner e'
  := by
  cases h with
  | done => cases he
  | stop _ hsame =>
    cases he
    exact ⟨_, rfl, hsame⟩

/-- Where the same states are left, one step is finished when the other is. -/
theorem eq_done_iff {p p' : Progress σ} (h : p.GoAlike Eq p') (s : σ) :
  p = .done s ↔ p' = .done s
  := by cases h <;> simp_all [Progress.done, Progress.stop]

end Progress.GoAlike

namespace Compilation

/-- The second compilation is the first, which has no handlers, with some claims forgotten, and
whatever the first has claimed is bound. -/
structure Forgets (c d : Compilation) : Prop where
  handlers : c.handlers = .empty
  rest : d = { c with claims := d.claims }
  bound : ∀ name ∈ Keyed.keys c.claims, c.query.isBound name = true
  owner : ∀ name owner, Keyed.get? name d.claims = some owner →
    Keyed.get? name c.claims = some owner

namespace Forgets

variable {c d : Compilation}

/-- A compilation that has claimed nothing has nothing to forget. -/
theorem of_unclaimed (handlers : c.handlers = .empty) (unclaimed : c.claims = []) :
  c.Forgets c
  := by
  use handlers, rfl
  · rw [unclaimed]
    intro name hname
    cases hname
  · intro _ _ h
    exact h

/-- A compilation that begins anew has forgotten everything. -/
theorem unclaim (h : c.Forgets d) :
  c.Forgets { c with claims := [] }
  := by
  use h.handlers, rfl, h.bound
  rintro _ _ ⟨⟩

theorem skips_eq (h : c.Forgets d) (f : Filter) :
  d.skips f = c.skips f
  := by
  rw [h.rest]
  rfl

theorem query_eq (h : c.Forgets d) :
  d.query = c.query
  := by rw [h.rest]

theorem isFree_iff (h : c.Forgets d) (name : String) :
  d.IsFree name ↔ c.IsFree name
  := by
  rw [IsFree, IsFree, h.query_eq, ← Keyed.get?_eq_none_iff, ← Keyed.get?_eq_none_iff]
  apply and_congr_left
  intro free
  constructor
  · intro _
    rw [Keyed.get?_eq_none_iff]
    intro hname
    rw [h.bound name hname] at free
    cases free
  · intro unclaimed
    rw [Option.eq_none_iff_forall_ne_some]
    intro owner howner
    rw [h.owner name owner howner] at unclaimed
    cases unclaimed

/-- A parameter that may not be bound may not be bound after claims were forgotten either. -/
theorem exists_nameFault? (h : c.Forgets d) {name : String} {fault : FieldFault}
    (hfault : c.nameFault? name = some fault) :
  ∃ fault', d.nameFault? name = some fault'
    ∧ ∀ field, Error.SameButOwner (.field field fault) (.field field fault')
  := by
  rw [nameFault?] at hfault
  rw [nameFault?, h.query_eq]
  cases hc : Keyed.get? name c.claims with
  | none =>
    have hd : Keyed.get? name d.claims = none := by
      rw [Option.eq_none_iff_forall_ne_some]
      intro owner howner
      rw [h.owner name owner howner] at hc
      cases hc
    rw [hc] at hfault
    rw [hd]
    exact ⟨fault, hfault, fun field => .refl _⟩
  | some owner =>
    rw [hc] at hfault
    cases hfault
    cases hd : Keyed.get? name d.claims with
    | some owner' =>
      obtain rfl := Option.some.inj (hc.symm.trans (h.owner name owner' hd))
      exact ⟨_, rfl, fun field => .refl _⟩
    | none =>
      have bound : c.query.isBound name = true := by
        apply h.bound
        rw [← Keyed.get?_isSome, hc]
        rfl
      simp only [bound, if_true]
      exact ⟨_, rfl, fun field => .bound field name owner.text⟩

/-- It is the same one of several parameters that may not be bound. -/
theorem exists_findSome?_nameFault? (h : c.Forgets d) {names : List String} {fault : FieldFault}
    (hfault : names.findSome? c.nameFault? = some fault) :
  ∃ fault', names.findSome? d.nameFault? = some fault'
    ∧ ∀ field, Error.SameButOwner (.field field fault) (.field field fault')
  := by
  induction names with
  | nil => cases hfault
  | cons name names ih =>
    rw [List.findSome?_cons] at hfault
    rw [List.findSome?_cons]
    cases hc : c.nameFault? name with
    | none =>
      rw [hc] at hfault
      rw [nameFault?_eq_none_iff, ← h.isFree_iff, ← nameFault?_eq_none_iff] at hc
      rw [hc]
      apply ih hfault
    | some first =>
      rw [hc] at hfault
      cases hfault
      obtain ⟨fault', hd, hsame⟩ := h.exists_nameFault? hc
      rw [hd]
      exact ⟨fault', rfl, hsame⟩

/-- What a filter adds is claimed and bound in both compilations. -/
theorem withFilters (h : c.Forgets d) {f : Filter} {clause : Clause}
    (hclause : Clause.ofFilter c.operators c.query.rootAlias? f = .ok clause)
    (free : ∀ name ∈ f.parameters c.operators, c.IsFree name) :
  (c.withFilters [f] [clause]).Forgets (d.withFilters [f] [clause])
  := by
  have hkeys : Keyed.keys (claimsOf c.operators [f]) = f.parameters c.operators := by
    rw [keys_claimsOf, List.flatMap_singleton]
  constructor
  · exact h.handlers
  · rw [h.rest]
    rfl
  · intro name hname
    apply (Clause.isBound_withClauses ..).mpr
    rw [List.flatMap_singleton, Clause.names_of_ofFilter hclause, ← hkeys]
    rw [Compilation.withFilters, Keyed.keys, List.map_append, List.mem_append] at hname
    apply hname.imp_left (h.bound name)
  · intro name owner howner
    have hoperators : d.operators = c.operators := by rw [h.rest]
    rw [Compilation.withFilters, hoperators, Keyed.get?_append, Option.or_eq_some_iff] at howner
    rw [Compilation.withFilters, Keyed.get?_append, Option.or_eq_some_iff]
    rcases howner with hold | ⟨-, hnew⟩
    · exact .inl (h.owner name owner hold)
    · right
      have hname : name ∈ f.parameters c.operators := by
        rw [← hkeys, ← Keyed.get?_isSome, hnew]
        rfl
      exact ⟨(Keyed.get?_eq_none_iff ..).mpr (free name hname).1, hnew⟩

/-- One filter goes alike. -/
theorem addFilter (h : c.Forgets d) (f : Filter) :
  (c.addFilter f).GoAlike Forgets (d.addFilter f)
  := by
  have handlers : d.handlers = .empty := by rw [h.rest, ← h.handlers]
  have generic : d.handlers.get? f.field.text = none := by rw [handlers, Handlers.get?_empty]
  have hoperators : d.operators = c.operators := by rw [h.rest]
  have hofFilter : Clause.ofFilter d.operators d.query.rootAlias? f
      = Clause.ofFilter c.operators c.query.rootAlias? f := by rw [hoperators, h.query_eq]
  have hstep := c.atFilter_addFilter f
  generalize c.addFilter f = p at hstep ⊢
  cases hstep with
  | skipped skips =>
    rw [addFilter_of_skips (by rw [h.skips_eq, skips])]
    exact .done h
  | handled _ handler_eq =>
    rw [h.handlers, Handlers.get?_empty] at handler_eq
    cases handler_eq
  | misfit kept _ hclause =>
    rw [← h.skips_eq] at kept
    rw [← hofFilter] at hclause
    rw [addFilter_of_failure generic ((addFilter_failure_iff handlers kept _).mpr (.inl hclause))]
    exact .stop h (.refl _)
  | taken kept _ hclause hfault =>
    rw [← h.skips_eq] at kept
    rw [← hofFilter] at hclause
    obtain ⟨fault', hfault', hsame⟩ := h.exists_findSome?_nameFault? hfault
    rw [← hoperators] at hfault'
    rw [addFilter_of_failure generic ((addFilter_failure_iff handlers kept _).mpr
      (.inr ⟨⟨_, hclause⟩, fault', hfault', rfl⟩))]
    exact .stop h (hsame _)
  | @added clause kept _ hclause free =>
    have hd : d.addFilter f = .done (d.withFilters [f] [clause]) := by
      rw [← h.skips_eq] at kept
      apply (addFilter_eq_done_iff handlers kept _).mpr
      refine ⟨clause, hofFilter.trans hclause, ?_, rfl⟩
      intro name hname
      rw [hoperators] at hname
      apply (h.isFree_iff name).mpr (free name hname)
    rw [hd]
    exact .done (h.withFilters hclause free)

/-- All filters go alike. -/
theorem each_addFilter (h : c.Forgets d) (fs : List Filter) :
  (Progress.each Compilation.addFilter c fs).GoAlike Forgets
    (Progress.each Compilation.addFilter d fs)
  := by
  induction fs generalizing c d with
  | nil => exact .done h
  | cons f fs ih =>
    rw [Progress.each_cons, Progress.each_cons]
    apply (h.addFilter f).andThen
    intro _ _ h
    apply ih h

end Forgets

/-! ### Two compilations -/

section InTurn

variable (criteria : Criteria) (operators : Operators) (q : Query) (xs ys : List Filter)

/-- What filters make of a query when some are added by one compilation, and others to the query
it leaves by a compilation that begins anew. -/
def filteredInTurn : Progress Query :=
  (((start q criteria).setOperators operators).filtered xs).andThen fun q =>
    ((start q criteria).setOperators operators).filtered ys

/-- A filter stops the first compilation after the filters of it that stand before, or stops the
second one, after all filters of the first and those of the second that stand before. -/
inductive StopsInTurn : List Filter → Filter → Error → Prop
  | first {earlier : List Filter} {f : Filter} {e : Error}
      (h : (((start q criteria).setOperators operators).onFilters xs).StopsAtFilter earlier f e) :
      StopsInTurn earlier f e
  | second {q₁ : Query} {earlier : List Filter} {f : Filter} {e : Error}
      (finished : ((start q criteria).setOperators operators).filtered xs = .done q₁)
      (h : (((start q₁ criteria).setOperators operators).onFilters ys).StopsAtFilter earlier f e) :
      StopsInTurn (xs ++ earlier) f e

end InTurn

/-- Filters that are added alone stop at one of them. -/
theorem filtered_failure_iff (c : Compilation) (fs : List Filter) (e : Error) :
  (c.filtered fs).failure = some e ↔ ∃ earlier f, (c.onFilters fs).StopsAtFilter earlier f e
  := by
  simp only [stopsAtFilter_iff]
  rw [filtered, Progress.map_failure]
  apply Progress.each_failure_iff

variable {criteria : Criteria} {operators : Operators} {q : Query} {xs ys : List Filter}

theorem filteredInTurn_of_done {q₁ : Query}
    (finished : ((start q criteria).setOperators operators).filtered xs = .done q₁) :
  filteredInTurn criteria operators q xs ys
    = ((start q₁ criteria).setOperators operators).filtered ys
  := by rw [filteredInTurn, finished, Progress.andThen_done]

theorem StopsInTurn.failure {earlier : List Filter} {f : Filter} {e : Error}
    (h : StopsInTurn criteria operators q xs ys earlier f e) :
  (filteredInTurn criteria operators q xs ys).failure = some e
  := by
  cases h with
  | first h =>
    have he := (filtered_failure_iff ..).mpr ⟨_, _, h⟩
    rw [filteredInTurn, Progress.andThen_of_failure he, he]
  | second finished h =>
    rw [filteredInTurn_of_done finished]
    apply (filtered_failure_iff ..).mpr ⟨_, _, h⟩

/-- Filters go alike in one compilation and in two. -/
theorem goAlike_filteredInTurn (criteria : Criteria) (operators : Operators) (q : Query)
    (xs ys : List Filter) :
  (((start q criteria).setOperators operators).filtered (xs ++ ys)).GoAlike Eq
    (filteredInTurn criteria operators q xs ys)
  := by
  have hstart : ((start q criteria).setOperators operators).Forgets
      ((start q criteria).setOperators operators) := .of_unclaimed rfl rfl
  have hxs := hstart.each_addFilter xs
  obtain ⟨q₁, claims, hstate⟩ :=
    exists_each_addFilter_state_eq ((start q criteria).setOperators operators) xs
  rw [filteredInTurn, filtered_eq_each, filtered_eq_each, Progress.each_append]
  generalize Progress.each addFilter ((start q criteria).setOperators operators) xs = p
    at hxs hstate ⊢
  cases hxs with
  | done h =>
    obtain rfl := hstate
    change Progress.GoAlike Eq (Progress.map _ _) (filtered _ _)
    rw [filtered_eq_each]
    -- what is left of the first compilation is its query
    apply (h.unclaim.each_addFilter ys).map
    intro _ _ h
    apply h.query_eq.symm
  | stop => exact .stop rfl (.refl _)

/-- A filter behind those of the first compilation that stops the single one stops the second. -/
theorem exists_second_of_failure {earlier later : List Filter} {f : Filter} {e : Error}
    (hys : ys = earlier ++ f :: later)
    (finished : (((start q criteria).setOperators operators).filtered (xs ++ earlier)).failure
      = none)
    (stopped : (((start q criteria).setOperators operators).filtered
      (xs ++ (earlier ++ [f]))).failure = some e) :
  ∃ e', StopsInTurn criteria operators q xs ys (xs ++ earlier) f e' ∧ e.SameButOwner e'
  := by
  have hfinished := (goAlike_filteredInTurn criteria operators q xs earlier).failure_eq_none_iff.mp
    finished
  obtain ⟨e', hstopped, hsame⟩ :=
    (goAlike_filteredInTurn criteria operators q xs (earlier ++ [f])).exists_failure stopped
  obtain ⟨q₁, hq₁⟩ :
      ∃ q₁, ((start q criteria).setOperators operators).filtered xs = .done q₁ := by
    rw [Progress.eq_done_iff]
    intro e he
    rw [filteredInTurn, Progress.andThen_of_failure he, he] at hfinished
    cases hfinished
  rw [filteredInTurn_of_done hq₁] at hfinished hstopped
  exact ⟨e', .second hq₁ ⟨⟨later, hys⟩, hfinished, hstopped⟩, hsame⟩

theorem exists_stopsInTurn {earlier : List Filter} {f : Filter} {e : Error}
    (h : (((start q criteria).setOperators operators).onFilters (xs ++ ys)).StopsAtFilter
      earlier f e) :
  ∃ e', StopsInTurn criteria operators q xs ys earlier f e' ∧ e.SameButOwner e'
  := by
  obtain ⟨⟨later, hsplit⟩, finished, stopped⟩ := h
  rcases append_eq_append_cons hsplit with ⟨after, hxs, -⟩ | ⟨before, rfl, hys⟩
  · exact ⟨e, .first ⟨⟨after, hxs⟩, finished, stopped⟩, .refl e⟩
  · rw [List.append_assoc] at stopped
    exact exists_second_of_failure hys finished stopped

/-- Filters can be split over two compilations.  Added by one, and the rest by another that begins
anew on the query it leaves, they go through exactly when they go through in a single compilation,
and the query that is made, or left behind, is the same.  Where the single compilation fails, it
stops at a filter, and the two stop at it as well, for the same reason but for the owner of a
parameter. -/
theorem filtered_append (criteria : Criteria) (operators : Operators) (q : Query)
    (xs ys : List Filter) :
  (∀ q', ((start q criteria).setOperators operators).filtered (xs ++ ys) = .done q'
      ↔ filteredInTurn criteria operators q xs ys = .done q')
    ∧ (filteredInTurn criteria operators q xs ys).state
        = (((start q criteria).setOperators operators).filtered (xs ++ ys)).state
    ∧ (∀ e, (((start q criteria).setOperators operators).filtered (xs ++ ys)).failure = some e
        ↔ ∃ earlier f,
          (((start q criteria).setOperators operators).onFilters (xs ++ ys)).StopsAtFilter
            earlier f e)
    ∧ ∀ earlier f e,
        (((start q criteria).setOperators operators).onFilters (xs ++ ys)).StopsAtFilter
          earlier f e →
        ∃ e', StopsInTurn criteria operators q xs ys earlier f e'
          ∧ (filteredInTurn criteria operators q xs ys).failure = some e' ∧ e.SameButOwner e'
  := by
  have halike := goAlike_filteredInTurn criteria operators q xs ys
  use halike.eq_done_iff, halike.rel_state.symm, filtered_failure_iff _ _
  intro earlier f e h
  obtain ⟨e', hstops, hsame⟩ := exists_stopsInTurn h
  use e', hstops, hstops.failure, hsame

/-- A range of prices behind a filter that has taken the name of its lower bound.  A compilation of
both knows whose the name is, and a second compilation does not. -/
theorem filtered_append_posts :
  ∃ (criteria : Criteria) (operators : Operators) (q : Query) (xs ys earlier : List Filter)
      (f : Filter) (e e' : Error),
    xs.length = 1 ∧ ys.length = 3 ∧ earlier.map (·.field.text) = ["price_from", "title"]
      ∧ f.field.text = "price"
      ∧ e = .field "price" (.claimed "price_from" "price_from")
      ∧ e' = .field "price" (.bound "price_from")
      ∧ (((start q criteria).setOperators operators).onFilters (xs ++ ys)).StopsAtFilter
          earlier f e
      ∧ StopsInTurn criteria operators q xs ys earlier f e'
      ∧ (filteredInTurn criteria operators q xs ys).failure = some e' ∧ e.SameButOwner e'
  := by
  let q : Query := ⟨.postgres, "posts", some "post", [], [], [], [], [], none, none, none⟩
  let operators : Operators := .ofList [("price", "between"), ("price_from", "gte")]
  let discount : Filter := ⟨⟨"price_from", by decide⟩, .int 9⟩
  let title : Filter := ⟨⟨"title", by decide⟩, .string "it's"⟩
  let price : Filter := ⟨⟨"price", by decide⟩, .list [.int 1, .int 5]⟩
  let rank : Filter := ⟨⟨"rank", by decide⟩, .int 1⟩
  let e : Error := .field "price" (.claimed "price_from" "price_from")
  have h : (((start q .standard).setOperators operators).onFilters
      ([discount] ++ [title, price, rank])).StopsAtFilter [discount, title] price e :=
    ⟨⟨[rank], rfl⟩, by decide +kernel, by decide +kernel⟩
  obtain ⟨e', hstops, hfailure, hsame⟩ :=
    (filtered_append .standard operators q [discount] [title, price, rank]).2.2.2 _ _ _ h
  have he' : (filteredInTurn .standard operators q [discount] [title, price, rank]).failure
      = some (.field "price" (.bound "price_from")) := by decide +kernel
  exact ⟨.standard, operators, q, [discount], [title, price, rank], [discount, title], price, e, e',
    rfl, rfl, rfl, rfl, rfl, Option.some.inj (hfailure.symm.trans he'), h, hstops, hfailure, hsame⟩

end Compilation

end Shortlist
