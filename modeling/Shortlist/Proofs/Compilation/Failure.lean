import Shortlist.Proofs.Compilation.Refusal

/-!
# What failed builds leave behind

A build works on a query that outlives it, so what a failed build has done stays.  A filter
without a handler is refused before anything of it is added, and so is an order term.  The
query a failed build leaves is therefore the one that the entries before the refused one make
on their own, and nothing of the later phases is in it.
-/

namespace Shortlist

/-- What a query holds of the order, the grouping and the page of a listing. -/
structure Query.Listing where
  order : List (String × Direction)
  grouping? : Option String
  limit? : Option UInt64
  offset? : Option UInt64

/-- The order terms, the grouping, the limit and the offset of a query. -/
def Query.listing (q : Query) : Query.Listing :=
  ⟨q.order, q.grouping?, q.limit?, q.offset?⟩

namespace Compilation

variable (c : Compilation)

/-- The compilation with other filters. -/
def onFilters (fs : List Filter) : Compilation :=
  { c with criteria := { c.criteria with filters := fs } }

/-- The compilation with other order terms. -/
def onOrder (ts : List OrderTerm) : Compilation :=
  { c with criteria := { c.criteria with order := ts } }

/-- What the first phase makes of the query when it is given some filters alone. -/
def filtered (fs : List Filter) : Progress Query :=
  (c.onFilters fs).addFilters.map (·.query)

/-- What the second phase makes of the query when it is given some order terms alone. -/
def ordered (ts : List OrderTerm) : Progress Query :=
  (c.onOrder ts).addOrder.map (·.query)

/-- The first phase stops at a filter: the filters before it go through, and with it they do
not. -/
def StopsAtFilter (earlier : List Filter) (f : Filter) (e : Error) : Prop :=
  (∃ later, c.criteria.filters = earlier ++ f :: later)
    ∧ (c.filtered earlier).failure = none ∧ (c.filtered (earlier ++ [f])).failure = some e

/-- The second phase stops at an order term, after all filters went through. -/
def StopsAtOrder (earlier : List OrderTerm) (t : OrderTerm) (e : Error) : Prop :=
  ∃ d, c.addFilters = .done d ∧ (∃ later, c.criteria.order = earlier ++ t :: later)
    ∧ (d.ordered earlier).failure = none ∧ (d.ordered (earlier ++ [t])).failure = some e

/-- The handler that is called for a filter; there is none for a filter that is left out. -/
def handlerFor? (f : Filter) : Option (Handler Query) :=
  if c.skips f then none else c.handlers.get? f.field.text

/-- Filter by filter, the listing is what the handler leaves that is called for the filter, and
unchanged when there is none. -/
def ListingLeftByHandlers (fs : List Filter) : Prop :=
  ∀ earlier f later, fs = earlier ++ f :: later →
    (c.filtered (earlier ++ [f])).state.listing =
      match c.handlerFor? f with
      | none => (c.filtered earlier).state.listing
      | some handler => (handler (c.filtered earlier).state f.field f.operand).state.listing

/-! ### One filter -/

/-- A filter without a handler is refused before anything of it is added. -/
theorem addFilter_of_failure
    {c : Compilation} {f : Filter} {e : Error} (generic : c.handlers.get? f.field.text = none)
    (h : (c.addFilter f).failure = some e) :
  c.addFilter f = .stop c e
  := by
  have hstep := c.atFilter_addFilter f
  generalize c.addFilter f = p at h hstep ⊢
  cases hstep with
  | skipped skips => cases h
  | handled kept handler_eq =>
    rw [generic] at handler_eq
    cases handler_eq
  | misfit =>
    cases h
    rfl
  | taken =>
    cases h
    rfl
  | added => cases h

theorem listing_addFilter (f : Filter) :
  (c.addFilter f).state.query.listing =
    match c.handlerFor? f with
    | none => c.query.listing
    | some handler => (handler c.query f.field f.operand).state.listing
  := by
  have hstep := c.atFilter_addFilter f
  generalize c.addFilter f = p at hstep ⊢
  rw [handlerFor?]
  cases hstep with
  | skipped skips =>
    rw [skips]
    rfl
  | handled kept handler_eq =>
    rw [kept, handler_eq]
    rfl
  | misfit kept generic =>
    rw [kept, generic]
    rfl
  | taken kept generic =>
    rw [kept, generic]
    rfl
  | added kept generic =>
    rw [kept, generic]
    rfl

/-- The other filters do not count for what becomes of one. -/
theorem addFilter_onFilters (fs : List Filter) (f : Filter) :
  (c.onFilters fs).addFilter f = (c.addFilter f).map (·.onFilters fs)
  := by
  have hreads : (c.onFilters fs).ReadsAlike c f := ⟨rfl, fun _ => rfl, fun _ _ => rfl⟩
  obtain ⟨q, claims, hstate⟩ := c.exists_addFilter_state_eq f
  apply (addFilter_resume hreads).trans
  rw [Progress.map, Progress.map, hstate]
  rfl

/-! ### Runs -/

/-- A run over filters changes nothing but the query and the claims. -/
theorem exists_each_addFilter_state_eq (fs : List Filter) :
  ∃ q claims, (Progress.each addFilter c fs).state = { c with query := q, claims := claims }
  := by
  apply Progress.each_state
    (P := fun d : Compilation => ∃ q claims, d = { c with query := q, claims := claims })
  · rintro d f ⟨q, claims, rfl⟩
    apply exists_addFilter_state_eq
  · exact ⟨_, _, rfl⟩

theorem filtered_eq_each (fs : List Filter) :
  c.filtered fs = (Progress.each addFilter c fs).map (·.query)
  := by
  have hmap := Progress.each_map (fun c f => addFilter_onFilters c fs f) c fs
  apply congrArg (Progress.map (·.query)) hmap

theorem ordered_eq_each (ts : List OrderTerm) :
  c.ordered ts = (Progress.each addOrderTerm c ts).map (·.query)
  := by
  have hmap (c : Compilation) (t : OrderTerm) :
      (c.onOrder ts).addOrderTerm t = (c.addOrderTerm t).map (·.onOrder ts) := by
    rw [addOrderTerm, addOrderTerm, show (c.onOrder ts).query = c.query from rfl]
    cases t.field.qualify c.query.rootAlias? <;> rfl
  apply congrArg (Progress.map (·.query)) (Progress.each_map hmap c ts)

/-- The filters stop where a run over them does. -/
theorem stopsAtFilter_iff (earlier : List Filter) (f : Filter) (e : Error) :
  c.StopsAtFilter earlier f e
    ↔ ∃ later d, c.criteria.filters = earlier ++ f :: later
        ∧ Progress.each addFilter c earlier = .done d ∧ (d.addFilter f).failure = some e
  := by
  rw [StopsAtFilter, filtered_eq_each, filtered_eq_each, Progress.map_failure,
    Progress.map_failure, Progress.each_concat_failure_iff]
  simp only [exists_and_left, exists_and_right]

theorem stopsAtOrder_iff (earlier : List OrderTerm) (t : OrderTerm) (e : Error) :
  c.StopsAtOrder earlier t e
    ↔ ∃ d later d', c.addFilters = .done d ∧ c.criteria.order = earlier ++ t :: later
        ∧ Progress.each addOrderTerm d earlier = .done d' ∧ (d'.addOrderTerm t).failure = some e
  := by
  simp only [StopsAtOrder, ordered_eq_each, Progress.map_failure,
    Progress.each_concat_failure_iff, exists_and_left, exists_and_right]

/-- The second phase runs over the order terms of the criteria, whatever the filters were. -/
theorem addOrder_eq_each {c d : Compilation} (h : c.addFilters = .done d) :
  d.addOrder = Progress.each addOrderTerm d c.criteria.order
  := by
  obtain ⟨q, claims, hd⟩ := c.exists_each_addFilter_state_eq c.criteria.filters
  rw [show Progress.each addFilter c c.criteria.filters = .done d from h] at hd
  obtain rfl : d = _ := hd
  rfl

/-- A build fails exactly when a filter or an order term stops it. -/
theorem build_eq_error_iff_exists_stops (e : Error) :
  c.build = .error e
    ↔ (∃ earlier f, c.StopsAtFilter earlier f e) ∨ ∃ earlier t, c.StopsAtOrder earlier t e
  := by
  simp only [build_eq_error_iff_run, stopsAtFilter_iff, stopsAtOrder_iff]
  apply or_congr
  · rw [addFilters, Progress.each_failure_iff]
  · constructor
    · rintro ⟨d, hd, hfailure⟩
      rw [addOrder_eq_each hd, Progress.each_failure_iff] at hfailure
      obtain ⟨earlier, t, later, d', hsplit, hd', hfailure⟩ := hfailure
      exact ⟨earlier, t, d, later, d', hd, hsplit, hd', hfailure⟩
    · rintro ⟨earlier, t, d, later, d', hd, hsplit, hd', hfailure⟩
      use d, hd
      rw [addOrder_eq_each hd, Progress.each_failure_iff]
      exact ⟨earlier, t, later, d', hsplit, hd', hfailure⟩

/-- Where filters go through, the handlers that are called for them decide on the listing. -/
theorem listingLeftByHandlers
    {fs : List Filter} {d : Compilation} (h : Progress.each addFilter c fs = .done d) :
  c.ListingLeftByHandlers fs
  := by
  rintro earlier f later rfl
  rw [Progress.each_append, Progress.andThen_eq_done_iff] at h
  obtain ⟨b, hb, -⟩ := h
  obtain ⟨q, claims, hstate⟩ := c.exists_each_addFilter_state_eq earlier
  rw [hb] at hstate
  obtain rfl : b = _ := hstate
  rw [filtered_eq_each, filtered_eq_each, Progress.each_concat, hb, Progress.andThen_done]
  apply listing_addFilter

/-- What a build leaves when a filter without a handler stops it. -/
theorem run_of_stopsAtFilter
    {c : Compilation} {earlier : List Filter} {f : Filter} {e : Error}
    (h : c.StopsAtFilter earlier f e) (generic : c.handlers.get? f.field.text = none) :
  c.run.state.query = (c.filtered earlier).state ∧ c.ListingLeftByHandlers earlier
  := by
  obtain ⟨later, d, hsplit, hd, hfailure⟩ := (c.stopsAtFilter_iff earlier f e).mp h
  obtain ⟨q, claims, hstate⟩ := c.exists_each_addFilter_state_eq earlier
  rw [hd] at hstate
  have hhandlers : d.handlers = c.handlers := by
    obtain rfl : d = _ := hstate
    rfl
  have hstop : c.addFilters = .stop d e := by
    rw [addFilters, hsplit, Progress.each_append_cons_of_failure hd hfailure]
    apply addFilter_of_failure _ hfailure
    rw [hhandlers, generic]
  constructor
  · rw [run, hstop, Progress.andThen_stop, Progress.andThen_stop, filtered_eq_each, hd]
    rfl
  · apply listingLeftByHandlers c hd

/-- What a build leaves when an order term stops it. -/
theorem run_of_stopsAtOrder
    {c : Compilation} {earlier : List OrderTerm} {t : OrderTerm} {e : Error}
    (h : c.StopsAtOrder earlier t e) :
  ∃ q terms, c.filtered c.criteria.filters = .done q
    ∧ OrderTerm.Of q.rootAlias? earlier terms
    ∧ c.run.state.query = { q with order := q.order ++ terms }
  := by
  obtain ⟨d, later, d', hd, hsplit, hd', hfailure⟩ := (c.stopsAtOrder_iff earlier t e).mp h
  obtain ⟨terms, hterms, rfl⟩ := (each_addOrderTerm_eq_done_iff d earlier d').mp hd'
  use d.query, terms
  constructor
  · rw [filtered_eq_each, show Progress.each addFilter c c.criteria.filters = .done d from hd]
    rfl
  · use hterms
    have hstop : d.addOrder = (d.withOrder terms).addOrderTerm t := by
      rw [addOrder_eq_each hd, hsplit, Progress.each_append_cons_of_failure hd' hfailure]
    have hrun : c.run = (d.withOrder terms).addOrderTerm t := by
      rw [run, hd, Progress.andThen_done, hstop, Progress.andThen_of_failure hfailure]
    rw [hrun]
    rw [addOrderTerm] at hfailure ⊢
    split at hfailure
    · rfl
    · cases hfailure

/-- A build that fails is stopped by a filter or an order term.  A filter without a handler
leaves the query that the filters before it make on their own, with the listing that the
handlers called for them left.  An order term leaves the query that all filters make with the
order terms before it, and neither leaves anything of the phases after it. -/
theorem query_run_of_stops (c : Compilation) :
  (∀ e, c.build = .error e
      ↔ (∃ earlier f, c.StopsAtFilter earlier f e) ∨ ∃ earlier t, c.StopsAtOrder earlier t e)
    ∧ (∀ earlier f e, c.StopsAtFilter earlier f e → c.handlers.get? f.field.text = none →
        c.run.state.query = (c.filtered earlier).state ∧ c.ListingLeftByHandlers earlier)
    ∧ ∀ earlier t e, c.StopsAtOrder earlier t e →
        ∃ q terms, c.filtered c.criteria.filters = .done q
          ∧ OrderTerm.Of q.rootAlias? earlier terms
          ∧ c.run.state.query = { q with order := q.order ++ terms }
  := by
  use c.build_eq_error_iff_exists_stops
  constructor
  · intro earlier f e h generic
    apply run_of_stopsAtFilter h generic
  · intro earlier t e h
    apply run_of_stopsAtOrder h

theorem query_run_of_stops_posts :
  (∃ (c : Compilation) (earlier : List Filter) (f : Filter),
      earlier.map (·.field.text) = ["id", "author.name"] ∧ f.field.text = "price"
      ∧ c.criteria.offset? = some 10
      ∧ c.StopsAtFilter earlier f (.field "price" (.bound "price_to"))
      ∧ c.handlers.get? f.field.text = none
      ∧ c.run.state.query = (c.filtered earlier).state ∧ c.ListingLeftByHandlers earlier
      ∧ Keyed.keys c.run.state.query.parameters = ["price_to", "id"]
      ∧ c.run.state.query.grouping? = some "author.id")
    ∧ ∃ (c : Compilation) (earlier : List OrderTerm) (t : OrderTerm),
      earlier.map (·.field.text) = ["post.rank"] ∧ t.field.text = "created"
      ∧ c.StopsAtOrder earlier t .missingAlias
      ∧ ∃ q terms, c.filtered c.criteria.filters = .done q
          ∧ OrderTerm.Of q.rootAlias? earlier terms
          ∧ c.run.state.query = { q with order := q.order ++ terms }
  := by
  constructor
  · let q : Query :=
      ⟨.postgres, "posts", some "post", [], [], [], [("price_to", .int 9)], [], none, none, none⟩
    let byAuthor : Handler Query := fun q _ _ => .done (q.group "author.id")
    let earlier : List Filter :=
      [⟨⟨"id", by decide⟩, .int 1⟩, ⟨⟨"author.name", by decide⟩, .string "Ann"⟩]
    let f : Filter := ⟨⟨"price", by decide⟩, .list [.int 1, .int 5]⟩
    let criteria : Criteria :=
      ⟨10, 2, [⟨⟨"created", by decide⟩, .descending⟩], some ⟨"post.id", by decide⟩,
        earlier ++ [f], .ofList [("price", "between")], true⟩
    let c := (start q criteria).withHandlers (Handlers.empty.register "authorName" byAuthor)
    have h : c.StopsAtFilter earlier f (.field "price" (.bound "price_to")) :=
      ⟨⟨[], rfl⟩, by decide +kernel, by decide +kernel⟩
    have generic : c.handlers.get? f.field.text = none :=
      Option.isNone_iff_eq_none.mp (by decide +kernel)
    have hquery := (query_run_of_stops c).2.1 earlier f _ h generic
    exact ⟨c, earlier, f, rfl, rfl, by decide, h, generic, hquery.1, hquery.2,
      by decide +kernel, by decide +kernel⟩
  · let q : Query := ⟨.sqlite, "posts", none, [], [], [], [], [], none, none, none⟩
    let earlier : List OrderTerm := [⟨⟨"post.rank", by decide⟩, .descending⟩]
    let t : OrderTerm := ⟨⟨"created", by decide⟩, .ascending⟩
    let c := start q
      ⟨10, 2, earlier ++ [t], none, [⟨⟨"post.id", by decide⟩, .int 1⟩], .empty, true⟩
    have h : c.StopsAtOrder earlier t .missingAlias :=
      ⟨_, rfl, ⟨[], rfl⟩, by decide +kernel, by decide +kernel⟩
    exact ⟨c, earlier, t, rfl, rfl, h, (query_run_of_stops c).2.2 earlier t _ h⟩

end Compilation

end Shortlist
