import Shortlist.Proofs.Compilation.Failure

/-!
# What the phases read

Of a compilation, each phase reads its own part only: for a filter, whether it is left out, then
its handler or its operator; afterwards the order, the grouping and the page of the criteria.  So
when two compilations read the same there, they make the same of every query, also where other
filters stand that are added in the same way, one for one.
-/

namespace Shortlist.Compilation

/-- The second filter is added as the first one is, to any compilation with the operators and
handlers of the given one. -/
def AddedAlike (c : Compilation) (f f' : Filter) : Prop :=
  ∀ d : Compilation, d.operators = c.operators → d.handlers = c.handlers →
    d.addFilter f' = d.addFilter f

/-- Only the operators and handlers of a compilation say how filters are added. -/
theorem AddedAlike.of_eq {c d : Compilation} {f f' : Filter} (h : c.AddedAlike f f')
    (operators : d.operators = c.operators) (handlers : d.handlers = c.handlers) :
  d.AddedAlike f f'
  := by
  intro e he he'
  apply h e (he.trans operators) (he'.trans handlers)

/-- Filters that are added alike, one for one, come to the same in the end. -/
theorem each_addFilter_eq_of_addedAlike {c : Compilation} {fs fs' : List Filter}
    (h : List.Forall₂ c.AddedAlike fs fs') :
  Progress.each addFilter c fs' = Progress.each addFilter c fs
  := by
  induction fs generalizing c fs' with
  | nil =>
    cases h
    rfl
  | cons f fs ih =>
    cases h with
    | cons hf hfs =>
      rw [Progress.each_cons, Progress.each_cons, hf c rfl rfl]
      obtain ⟨q, claims, hstate⟩ := c.exists_addFilter_state_eq f
      generalize c.addFilter f = p at hstate
      obtain ⟨d, failure⟩ := p
      obtain rfl : d = _ := hstate
      cases failure with
      | some e => rfl
      | none =>
        -- the filter that was added left the operators and the handlers as they were
        apply ih
        apply hfs.imp
        intro g g' hg
        apply hg.of_eq rfl rfl

/-! ### Runs that read the same -/

/-- A compilation that reads the filters alike adds them to a resumed query as the other one does.
-/
theorem each_addFilter_resume {c d : Compilation} {fs : List Filter}
    (h : ∀ f ∈ fs, c.ReadsAlike d f) :
  Progress.each addFilter (c.resume d) fs = (Progress.each addFilter d fs).map c.resume
  := by
  induction fs generalizing d with
  | nil => rfl
  | cons f fs ih =>
    obtain ⟨hf, hfs⟩ := List.forall_mem_cons.mp h
    rw [Progress.each_cons, Progress.each_cons, addFilter_resume hf]
    apply Progress.map_andThen
    -- the filter that was added left what is read for the others as it was
    obtain ⟨q, claims, hstate⟩ := d.exists_addFilter_state_eq f
    rw [hstate]
    apply ih
    intro g hg
    exact ⟨(hfs g hg).skips, (hfs g hg).handler, (hfs g hg).operator⟩

/-- The phases after the filters read the same of the criteria of two compilations. -/
structure ListsAlike (c d : Compilation) : Prop where
  order : c.criteria.order = d.criteria.order
  grouping : c.criteria.grouping? = d.criteria.grouping?
  offset : c.criteria.offset? = d.criteria.offset?
  items : c.criteria.items = d.criteria.items

theorem ListsAlike.of_criteria_eq {c d e : Compilation} (h : c.ListsAlike d)
    (criteria : e.criteria = d.criteria) :
  c.ListsAlike e
  := by
  obtain ⟨horder, hgrouping, hoffset, hitems⟩ := h
  rw [← criteria] at horder hgrouping hoffset hitems
  exact ⟨horder, hgrouping, hoffset, hitems⟩

/-- The order is read from the criteria and the root alias alone. -/
theorem ListsAlike.addOrder {c d : Compilation} (h : c.ListsAlike d) :
  (c.resume d).addOrder = d.addOrder.map c.resume
  := by
  have horder : (c.resume d).criteria.order = d.criteria.order := h.order
  have hstep (d : Compilation) (t : OrderTerm) :
      (c.resume d).addOrderTerm t = (d.addOrderTerm t).map c.resume := by
    rw [addOrderTerm, addOrderTerm, resume]
    cases t.field.qualify d.query.rootAlias? <;> rfl
  rw [Compilation.addOrder, Compilation.addOrder, horder]
  apply Progress.each_map hstep

/-- The grouping is read from the criteria alone. -/
theorem ListsAlike.setGrouping {c d : Compilation} (h : c.ListsAlike d) :
  (c.resume d).setGrouping = c.resume d.setGrouping
  := by
  have hgrouping : (c.resume d).criteria.grouping? = d.criteria.grouping? := h.grouping
  rw [Compilation.setGrouping, Compilation.setGrouping, hgrouping]
  cases d.criteria.grouping? <;> rfl

/-- The page is read from the criteria alone. -/
theorem ListsAlike.setPage {c d : Compilation} (h : c.ListsAlike d) :
  (c.resume d).setPage = c.resume d.setPage
  := by
  have hoffset : (c.resume d).criteria.offset? = d.criteria.offset? := h.offset
  have hitems : (c.resume d).criteria.items = d.criteria.items := h.items
  rw [Compilation.setPage, Compilation.setPage, hoffset, hitems]
  cases d.criteria.offset? <;> rfl

theorem setGrouping_criteria (c : Compilation) :
  c.setGrouping.criteria = c.criteria
  := by
  rw [setGrouping]
  cases c.criteria.grouping? <;> rfl

/-- Filters leave the criteria of the compilation as they are. -/
theorem addFilters_criteria (c : Compilation) :
  c.addFilters.state.criteria = c.criteria
  := by
  obtain ⟨q, claims, h⟩ := c.exists_each_addFilter_state_eq c.criteria.filters
  rw [addFilters, h]

/-- Order terms leave the criteria of the compilation as they are. -/
theorem addOrder_criteria (c : Compilation) :
  c.addOrder.state.criteria = c.criteria
  := by
  apply Progress.each_state (P := fun d : Compilation => d.criteria = c.criteria)
  · intro d t hd
    rw [addOrderTerm]
    cases t.field.qualify d.query.rootAlias? <;> exact hd
  · rfl

/-- Where the filters are added alike, the later phases go alike. -/
theorem run_resume {c d : Compilation} (lists : c.ListsAlike d)
    (hfilters : (c.resume d).addFilters = d.addFilters.map c.resume) :
  (c.resume d).run = d.run.map c.resume
  := by
  have hlists : c.ListsAlike d.addFilters.state := lists.of_criteria_eq d.addFilters_criteria
  rw [run, run, hfilters, Progress.map_andThen hlists.addOrder]
  apply Progress.map_andThen
  have hlists' : c.ListsAlike (d.addFilters.andThen addOrder).state := by
    apply Progress.andThen_state (P := c.ListsAlike) hlists
    intro e he
    apply he.of_criteria_eq e.addOrder_criteria
  rw [hlists'.setGrouping, (hlists'.of_criteria_eq (setGrouping_criteria _)).setPage]
  rfl

/-- The same query comes out, or is left behind, when filters are put in place of others that
are added as they are. -/
theorem run_query_onFilters {c : Compilation} {fs : List Filter}
    (h : List.Forall₂ c.AddedAlike c.criteria.filters fs) :
  (c.onFilters fs).run.map (·.query) = c.run.map (·.query)
  := by
  have hlists : (c.onFilters fs).ListsAlike c := ⟨rfl, rfl, rfl, rfl⟩
  have hrun : ((c.onFilters fs).resume c).run = c.run.map (c.onFilters fs).resume := by
    apply run_resume hlists
    rw [addFilters, addFilters, ← each_addFilter_eq_of_addedAlike h]
    apply each_addFilter_resume
    intro f _
    exact ⟨rfl, fun _ => rfl, fun _ _ => rfl⟩
  apply congrArg (Progress.map (·.query)) hrun

end Shortlist.Compilation
