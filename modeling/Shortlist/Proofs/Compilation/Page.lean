import Shortlist.Proofs.Compilation.Build
import Shortlist.Proofs.Criteria.Page

/-!
# The page of a query

A build sets the offset and the limit of its query last, so what handlers do to them does not
last.  When the page of the criteria has no limit, a query keeps the offset and the limit it has,
unless a handler changes them.
-/

namespace Shortlist

/-- The number of rows a query skips, and the most it lists. -/
def Query.window (q : Query) : Option UInt64 × Option UInt64 :=
  (q.offset?, q.limit?)

namespace Compilation

/-- What becomes of a compilation before its page is set.  Its handlers may do anything to the
offset and the limit of the query, but nothing else does. -/
structure BeforePage (c d : Compilation) : Prop where
  criteria : d.criteria = c.criteria
  handlers : d.handlers = c.handlers
  window : c.handlers = .empty → d.query.window = c.query.window

namespace BeforePage

variable {c d : Compilation}

theorem addFilter (h : c.BeforePage d) (f : Filter) :
  c.BeforePage (d.addFilter f).state
  := by
  have hstep := d.atFilter_addFilter f
  generalize d.addFilter f = p at hstep ⊢
  cases hstep with
  | skipped => exact h
  | handled _ handler_eq =>
    refine ⟨h.criteria, h.handlers, ?_⟩
    intro generic
    rw [h.handlers, generic, Handlers.get?_empty] at handler_eq
    cases handler_eq
  | misfit => exact h
  | taken => exact h
  | added => exact ⟨h.criteria, h.handlers, h.window⟩

theorem addOrderTerm (h : c.BeforePage d) (t : OrderTerm) :
  c.BeforePage (d.addOrderTerm t).state
  := by
  rw [Compilation.addOrderTerm]
  cases t.field.qualify d.query.rootAlias? with
  | error e => exact h
  | ok column => exact ⟨h.criteria, h.handlers, h.window⟩

theorem setGrouping (h : c.BeforePage d) :
  c.BeforePage d.setGrouping
  := by
  rw [Compilation.setGrouping]
  cases d.criteria.grouping? with
  | none => exact h
  | some field => exact ⟨h.criteria, h.handlers, h.window⟩

/-- The filters and the order come before the page, whether they can all be added or not. -/
theorem addFilters_andThen_addOrder (c : Compilation) :
  c.BeforePage (c.addFilters.andThen addOrder).state
  := by
  apply Progress.andThen_state
  · apply Progress.each_state (P := c.BeforePage)
    · intro d f hd
      apply hd.addFilter
    · exact ⟨rfl, rfl, fun _ => rfl⟩
  · intro d hd
    apply Progress.each_state (P := c.BeforePage)
    · intro e t he
      apply he.addOrderTerm
    · exact hd

end BeforePage

/-! ### A page with a limit -/

/-- The page of a completed build is that of the criteria, whatever the handlers did. -/
theorem window_of_build_eq_ok {c : Compilation} {offset : UInt64}
    (hoffset : c.criteria.offset? = some offset) {q : Query} (h : c.build = .ok q) :
  q.window = (some offset, some c.criteria.items.toUInt64)
  := by
  obtain ⟨_, hrun, rfl⟩ := (build_eq_ok_iff_run c q).mp h
  obtain ⟨e, he, hpage⟩ := (Progress.andThen_eq_done_iff ..).mp hrun
  cases hpage
  have hbefore : c.BeforePage (Progress.done e).state := by
    rw [← he]
    apply BeforePage.addFilters_andThen_addOrder
  have hcriteria : e.setGrouping.criteria = c.criteria := hbefore.setGrouping.criteria
  rw [setPage, hcriteria, hoffset]
  rfl

/-! ### A page without a limit -/

theorem setPage_of_offset?_eq_none {c : Compilation} (h : c.criteria.offset? = none) :
  c.setPage = c
  := by rw [setPage, h]

/-- Without a limit and without handlers a run leaves the offset and the limit of the query as
they are, whether it finishes or stops. -/
theorem window_run_of_offset?_eq_none {c : Compilation} (hoffset : c.criteria.offset? = none)
    (handlers : c.handlers = .empty) :
  c.run.state.query.window = c.query.window
  := by
  have hbefore : c.BeforePage c.run.state := by
    apply Progress.andThen_state
    · apply BeforePage.addFilters_andThen_addOrder
    · intro d hd
      have hnone : d.setGrouping.criteria.offset? = none := by
        rw [hd.setGrouping.criteria, hoffset]
      rw [setPage_of_offset?_eq_none hnone]
      apply hd.setGrouping
  apply hbefore.window handlers

end Compilation

/-- Pages tile the rows.  When the page of criteria has a limit, wherever they come from, the
number of rows before it is computed without wrapping around, and so is the number of rows up to
its end; these are the offset and the limit of every completed build.  A row is on the page that
its number divided by the number of items says: so different pages share no row, the rows of the
next page begin where those of a page end, and each row before the end of the last page is on
exactly one page.  When the page has no limit, a query keeps its offset and its limit. -/
theorem pages_tile {c : Criteria} (h : c.Produced) :
  (0 < c.items →
    (1 ≤ c.page.toNat ∧ (c.page - 1).toNat = c.page.toNat - 1
      ∧ ∃ offset, c.offset? = some offset ∧ offset.toNat = c.items.toNat * (c.page.toNat - 1)
        ∧ offset.toNat + c.items.toNat < 2 ^ 64
        ∧ ∀ (d : Compilation) (q : Query), d.criteria = c → d.build = .ok q →
          q.offset? = some offset ∧ q.limit? = some c.items.toUInt64)
    ∧ (∀ d : Criteria, d.Produced → d.items = c.items →
      (∀ r, r ∈ d.rows ↔ d.page.toNat = r / c.items.toNat + 1)
        ∧ (c.page ≠ d.page → ∀ r ∈ c.rows, r ∉ d.rows)
        ∧ (d.page.toNat = c.page.toNat + 1 →
          ∃ first middle last, first < middle ∧ middle < last ∧ c.rows = Set.Ico first middle
            ∧ d.rows = Set.Ico middle last))
    ∧ ∀ r < c.items.toNat * (2 ^ 32 - 1), ∃! page : UInt32,
      ∃ d : Criteria, d.Produced ∧ d.items = c.items ∧ d.page = page ∧ r ∈ d.rows)
  ∧ (c.items = 0 → ∀ d : Compilation, d.criteria = c → d.handlers = .empty →
    d.run.state.query.offset? = d.query.offset? ∧ d.run.state.query.limit? = d.query.limit?)
  := by
  have hpage := h.isSound.page
  constructor
  · intro hitems
    refine ⟨⟨hpage, ?_, ?_⟩, ?_, fun r hr => Criteria.existsUnique_page hitems hr⟩
    · obtain ⟨p, hp, hsub⟩ := Criteria.page_eq_succ hpage
      rw [hsub, hp, Nat.add_sub_cancel]
    · obtain ⟨offset, hoffset, hnat, hend⟩ := Criteria.exists_offset?_eq hitems hpage
      refine ⟨offset, hoffset, hnat, hend, ?_⟩
      rintro d q rfl hbuild
      apply Prod.mk.inj (Compilation.window_of_build_eq_ok hoffset hbuild)
    · intro d hd heq
      refine ⟨?_, ?_, ?_⟩
      · intro r
        rw [Criteria.mem_rows_iff (heq ▸ hitems) hd.isSound.page, heq]
      · apply Criteria.notMem_rows_of_page_ne hitems heq hpage hd.isSound.page
      · apply Criteria.adjacent_rows hitems heq hpage
  · rintro hitems d rfl handlers
    have hoffset : d.criteria.offset? = none := by
      simp [Criteria.offset?, hitems]
    apply Prod.mk.inj (Compilation.window_run_of_offset?_eq_none hoffset handlers)

/-- The last page of the most items, put onto a query of posts, and a page without a limit, which
leaves the tenth of a hundred posts where it is. -/
theorem pages_tile_posts :
  ∃ (c d : Criteria) (q q' : Query),
    Criteria.ofTomlText "items = 4294967295\npage = 4294967295" = .ok c
    ∧ Criteria.ofTomlText "items = 0\npage = 7" = .ok d ∧ c.Produced ∧ d.Produced
    ∧ 0 < c.items ∧ d.items = 0 ∧ (Compilation.start q c).build = .ok q'
    ∧ q'.offset? = some 18446744060824649730 ∧ q'.limit? = some 4294967295
    ∧ (∃! page : UInt32, ∃ e : Criteria, e.Produced ∧ e.items = c.items ∧ e.page = page
      ∧ 18446744060824649729 ∈ e.rows)
    ∧ (Compilation.start q d).run.state.query.offset? = some 9
    ∧ (Compilation.start q d).run.state.query.limit? = some 100
  := by
  let q : Query :=
    ⟨.postgres, "posts", some "post", [], [], [], [], [], none, some 100, some 9⟩
  obtain ⟨c, hc, h⟩ : ∃ c,
      Criteria.ofTomlText "items = 4294967295\npage = 4294967295" = .ok c
        ∧ (c.items, c.offset?, (Compilation.start q c).build.toOption.isSome)
          = (4294967295, some 18446744060824649730, true) :=
    exists_eq_ok_of_map_toOption (by decide +kernel)
  obtain ⟨d, hd, hzero⟩ : ∃ d, Criteria.ofTomlText "items = 0\npage = 7" = .ok d
      ∧ d.items = 0 :=
    exists_eq_ok_of_map_toOption (by decide +kernel)
  obtain ⟨hitems, h⟩ := Prod.mk.inj h
  obtain ⟨hoffset, hsome⟩ := Prod.mk.inj h
  obtain ⟨q', hq'⟩ : ∃ q', (Compilation.start q c).build = .ok q' := by
    cases hbuild : (Compilation.start q c).build with
    | error e => rw [hbuild] at hsome; cases hsome
    | ok q' => use q'
  have hpos : 0 < c.items := by
    rw [hitems]
    decide
  obtain ⟨⟨-, -, offset, hoffset', -, -, hwindow⟩, -, hunique⟩ := (pages_tile (.toml hc)).1 hpos
  obtain ⟨hskipped, hlisted⟩ := hwindow _ q' rfl hq'
  obtain rfl : offset = 18446744060824649730 := by
    rw [hoffset] at hoffset'
    apply (Option.some.inj hoffset').symm
  have hrow : 18446744060824649729 < c.items.toNat * (2 ^ 32 - 1) := by
    rw [hitems]
    decide
  obtain ⟨hskipped', hlisted'⟩ := (pages_tile (.toml hd)).2 hzero (.start q d) rfl rfl
  rw [hitems] at hlisted
  exact ⟨c, d, q, q', hc, hd, .toml hc, .toml hd, hpos, hzero, hq', hskipped, hlisted,
    hunique _ hrow, hskipped', hlisted'⟩

end Shortlist
