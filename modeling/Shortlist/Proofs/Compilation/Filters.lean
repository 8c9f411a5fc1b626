import Mathlib.Data.List.Forall2
import Shortlist.Proofs.Clause.Parameters

/-!
# Runs over filters

`AtFilter` lists what can become of one filter, and everything else is read off it.  Without
handlers a run over filters either stops at a filter or adds one clause for each
filter that is not left out.  `each_addFilter_eq_done_iff` says exactly when it does the
latter and what it leaves behind: every filter has a clause, no parameter is needed twice, and
none of them is claimed or bound before the run.
-/

namespace Shortlist

/-- The filters that are not left out. -/
def Criteria.kept (c : Criteria) : List Filter :=
  c.filters.filter fun f => !(c.skipNull && f.operand.isNull)

theorem Handlers.get?_empty {σ : Type} (name : String) :
  (empty : Handlers σ).get? name = none
  := rfl

/-- The clauses that filters have, each in its place. -/
def Clause.Of (operators : Operators) (rootAlias? : Option String) :
    List Filter → List Clause → Prop :=
  List.Forall₂ fun f clause => ofFilter operators rootAlias? f = .ok clause

/-- The clauses of filters name the parameters the filters need. -/
theorem Clause.Of.names_eq
    {operators : Operators} {rootAlias? : Option String} {fs : List Filter}
    {clauses : List Clause} (h : Of operators rootAlias? fs clauses) :
  clauses.flatMap names = fs.flatMap (·.parameters operators)
  := by
  induction h with
  | nil => rfl
  | cons hf _ ih => rw [List.flatMap_cons, List.flatMap_cons, ih, names_of_ofFilter hf]

namespace Compilation

/-- The claims that filters make. -/
def claimsOf (operators : Operators) (fs : List Filter) : List (String × Field) :=
  fs.flatMap fun f => (f.parameters operators).map (·, f.field)

/-- The compilation with filters added that have the given clauses. -/
def withFilters (c : Compilation) (fs : List Filter) (clauses : List Clause) : Compilation :=
  { c with
    query := c.query.withClauses clauses
    claims := c.claims ++ claimsOf c.operators fs }

/-- Nothing has claimed or bound the parameter. -/
def IsFree (c : Compilation) (name : String) : Prop :=
  name ∉ Keyed.keys c.claims ∧ c.query.isBound name = false

theorem keys_claimsOf (operators : Operators) (fs : List Filter) :
  Keyed.keys (claimsOf operators fs) = fs.flatMap (·.parameters operators)
  := by simp [Keyed.keys, claimsOf, List.map_flatMap, Function.comp_def]

/-- Claims are made filter by filter. -/
theorem claimsOf_append (operators : Operators) (fs gs : List Filter) :
  claimsOf operators (fs ++ gs) = claimsOf operators fs ++ claimsOf operators gs
  := List.flatMap_append

theorem withFilters_nil (c : Compilation) :
  c.withFilters [] [] = c
  := by simp [withFilters, Query.withClauses_nil, claimsOf]

theorem withFilters_append
    (c : Compilation) (fs gs : List Filter) (cs ds : List Clause) :
  (c.withFilters fs cs).withFilters gs ds = c.withFilters (fs ++ gs) (cs ++ ds)
  := by simp [withFilters, Query.withClauses_append, claimsOf_append]

/-- A name has no fault exactly when it is neither claimed nor bound. -/
theorem nameFault?_eq_none_iff (c : Compilation) (name : String) :
  c.nameFault? name = none ↔ c.IsFree name
  := by
  rw [nameFault?, IsFree, ← Keyed.get?_eq_none_iff]
  cases Keyed.get? name c.claims with
  | some owner => simp
  | none => simp

/-- The parameters that are free after filters were added are those that were free before
and that none of the filters needs. -/
theorem isFree_withFilters
    {c : Compilation} {fs : List Filter} {clauses : List Clause}
    (h : Clause.Of c.operators c.query.rootAlias? fs clauses) (name : String) :
  (c.withFilters fs clauses).IsFree name
    ↔ c.IsFree name ∧ name ∉ fs.flatMap (·.parameters c.operators)
  := by
  have hkeys : Keyed.keys (c.withFilters fs clauses).claims
      = Keyed.keys c.claims ++ fs.flatMap (·.parameters c.operators) := by
    rw [← keys_claimsOf]
    apply List.map_append
  have hbound := Clause.isBound_withClauses c.query clauses name
  rw [h.names_eq] at hbound
  rw [IsFree, IsFree, hkeys, List.mem_append, ← Bool.not_eq_true, ← Bool.not_eq_true,
    show (c.withFilters fs clauses).query = c.query.withClauses clauses from rfl, hbound]
  tauto

/-- The parameters of some filters can all be bound, one after the other, when those of the
first are free and those of the rest are free after it. -/
theorem nodup_and_isFree_cons_iff
    {c : Compilation} {f : Filter} {clause : Clause}
    (hclause : Clause.ofFilter c.operators c.query.rootAlias? f = .ok clause)
    (fs : List Filter) :
  ((f :: fs).flatMap (·.parameters c.operators)).Nodup
      ∧ (∀ name ∈ (f :: fs).flatMap (·.parameters c.operators), c.IsFree name)
    ↔ (∀ name ∈ f.parameters c.operators, c.IsFree name)
      ∧ (fs.flatMap (·.parameters c.operators)).Nodup
      ∧ ∀ name ∈ fs.flatMap (·.parameters c.operators),
          (c.withFilters [f] [clause]).IsFree name
  := by
  have hone := isFree_withFilters (List.Forall₂.cons hclause .nil)
  rw [List.flatMap_cons, List.nodup_append', List.forall_mem_append]
  constructor
  · rintro ⟨⟨-, hnodup, hdisjoint⟩, hfree, hfrees⟩
    use hfree, hnodup
    intro name hname
    apply (hone name).mpr
    use hfrees name hname
    intro hname'
    apply hdisjoint (by simpa using hname') hname
  · rintro ⟨hfree, hnodup, hfrees⟩
    constructor
    · use f.parameters_nodup _, hnodup
      intro name hname hname'
      apply ((hone name).mp (hfrees name hname')).2
      simpa using hname
    · use hfree
      intro name hname
      apply ((hone name).mp (hfrees name hname)).1

/-! ### One filter -/

/-- What a filter makes of a compilation: nothing when it is left out, what its handler does when
it has one, nothing but an error when it has no clause or a parameter of its clause may not be
bound, and its clause otherwise. -/
inductive AtFilter (c : Compilation) (f : Filter) : Progress Compilation → Prop where
  | skipped (skips : c.skips f = true) : AtFilter c f (.done c)
  | handled {handler : Handler Query} (kept : c.skips f = false)
      (handler_eq : c.handlers.get? f.field.text = some handler) :
    AtFilter c f ((handler c.query f.field f.operand).map fun q => { c with query := q })
  | misfit {e : Error} (kept : c.skips f = false)
      (generic : c.handlers.get? f.field.text = none)
      (hclause : Clause.ofFilter c.operators c.query.rootAlias? f = .error e) :
    AtFilter c f (.stop c e)
  | taken {clause : Clause} {fault : FieldFault} (kept : c.skips f = false)
      (generic : c.handlers.get? f.field.text = none)
      (hclause : Clause.ofFilter c.operators c.query.rootAlias? f = .ok clause)
      (hfault : (f.parameters c.operators).findSome? c.nameFault? = some fault) :
    AtFilter c f (.stop c (.field f.field.text fault))
  | added {clause : Clause} (kept : c.skips f = false)
      (generic : c.handlers.get? f.field.text = none)
      (hclause : Clause.ofFilter c.operators c.query.rootAlias? f = .ok clause)
      (free : ∀ name ∈ f.parameters c.operators, c.IsFree name) :
    AtFilter c f (.done (c.withFilters [f] [clause]))

theorem findSome?_nameFault?_eq_none_iff (c : Compilation) (names : List String) :
  names.findSome? c.nameFault? = none ↔ ∀ name ∈ names, c.IsFree name
  := by simp only [List.findSome?_eq_none_iff, nameFault?_eq_none_iff]

/-- A clause whose names are free is added at the end of the query. -/
theorem addTo_of_isFree {c : Compilation} {f : Filter} {clause : Clause}
    (hclause : Clause.ofFilter c.operators c.query.rootAlias? f = .ok clause)
    (free : ∀ name ∈ f.parameters c.operators, c.IsFree name) :
  clause.addTo c.query = c.query.withClauses [clause]
  := by
  apply Clause.addTo_of_fresh
  · rw [Clause.names_of_ofFilter hclause]
    apply Filter.parameters_nodup
  · rw [Clause.names_of_ofFilter hclause]
    intro name hname
    apply (free name hname).2

/-- Every filter is dealt with in one of these ways. -/
theorem atFilter_addFilter (c : Compilation) (f : Filter) :
  c.AtFilter f (c.addFilter f)
  := by
  rw [addFilter]
  cases hskips : c.skips f with
  | true => apply AtFilter.skipped hskips
  | false =>
    cases hhandler : c.handlers.get? f.field.text with
    | some handler => apply AtFilter.handled hskips hhandler
    | none =>
      cases hclause : Clause.ofFilter c.operators c.query.rootAlias? f with
      | error e => apply AtFilter.misfit hskips hhandler hclause
      | ok clause =>
        have hnames := Clause.names_of_ofFilter hclause
        simp only [Bool.false_eq_true, if_false, addClause, hnames]
        cases hfault : (f.parameters c.operators).findSome? c.nameFault? with
        | some fault => apply AtFilter.taken hskips hhandler hclause hfault
        | none =>
          have free := (c.findSome?_nameFault?_eq_none_iff _).mp hfault
          have hclaims : (f.parameters c.operators).map (·, f.field) = claimsOf c.operators [f] :=
            (List.flatMap_singleton ..).symm
          simp only [addTo_of_isFree hclause free, hclaims]
          apply AtFilter.added hskips hhandler hclause free

/-- A filter that is left out changes nothing. -/
theorem addFilter_of_skips {c : Compilation} {f : Filter} (h : c.skips f = true) :
  c.addFilter f = .done c
  := by rw [addFilter, if_pos h]

/-- A filter whose field has no handler is added when it has a clause and the parameters it
needs are free. -/
theorem addFilter_eq_done_iff
    {c : Compilation} {f : Filter} (handlers : c.handlers = .empty) (kept : c.skips f = false)
    (c' : Compilation) :
  c.addFilter f = .done c'
    ↔ ∃ clause, Clause.ofFilter c.operators c.query.rootAlias? f = .ok clause
        ∧ (∀ name ∈ f.parameters c.operators, c.IsFree name)
        ∧ c' = c.withFilters [f] [clause]
  := by
  have hstep := c.atFilter_addFilter f
  generalize c.addFilter f = p at hstep ⊢
  cases hstep with
  | skipped skips => simp [skips] at kept
  | handled _ handler_eq =>
    rw [handlers, Handlers.get?_empty] at handler_eq
    cases handler_eq
  | misfit _ _ hclause => simp [hclause, Progress.stop, Progress.done]
  | taken _ _ hclause hfault =>
    have hnot : ¬ ∀ name ∈ f.parameters c.operators, c.IsFree name := by
      simp [← findSome?_nameFault?_eq_none_iff, hfault]
    simp [hnot, Progress.stop, Progress.done]
  | added _ _ hclause free =>
    simp only [hclause, Except.ok.injEq, exists_eq_left', Progress.done, Progress.mk.injEq,
      and_true, eq_comm (b := c')]
    exact ⟨fun h => ⟨free, h⟩, fun h => h.2⟩

/-- A filter changes nothing but the query and the claims. -/
theorem exists_addFilter_state_eq (c : Compilation) (f : Filter) :
  ∃ q claims, (c.addFilter f).state = { c with query := q, claims := claims }
  := by
  have hstep := c.atFilter_addFilter f
  generalize c.addFilter f = p at hstep ⊢
  cases hstep with
  | _ => exact ⟨_, _, rfl⟩

theorem addFilter_criteria (c : Compilation) (f : Filter) :
  (c.addFilter f).state.criteria = c.criteria
  := by
  obtain ⟨q, claims, h⟩ := c.exists_addFilter_state_eq f
  rw [h]

/-! ### What is read for one filter -/

/-- The compilation with the query and the claims of another one. -/
def resume (c d : Compilation) : Compilation :=
  { c with query := d.query, claims := d.claims }

/-- Two compilations read the same for a filter: whether it is left out, and if it is not, its
handler, and its operator if there is no handler. -/
structure ReadsAlike (c d : Compilation) (f : Filter) : Prop where
  skips : c.skips f = d.skips f
  handler : d.skips f = false → c.handlers.get? f.field.text = d.handlers.get? f.field.text
  operator : d.skips f = false → d.handlers.get? f.field.text = none →
    c.operators.operatorOf f.field.text = d.operators.operatorOf f.field.text

/-- A filter is added alike where the same is read for it. -/
theorem addFilter_resume {c d : Compilation} {f : Filter} (h : c.ReadsAlike d f) :
  (c.resume d).addFilter f = (d.addFilter f).map c.resume
  := by
  have hskips : (c.resume d).skips f = d.skips f := h.skips
  have hfault : (c.resume d).nameFault? = d.nameFault? := rfl
  rw [addFilter, addFilter, hskips]
  cases hkept : d.skips f with
  | true => rfl
  | false =>
    have hhandler : (c.resume d).handlers.get? f.field.text = d.handlers.get? f.field.text :=
      h.handler hkept
    rw [hhandler]
    cases hgeneric : d.handlers.get? f.field.text with
    | some handler => rfl
    | none =>
      have hclause : Clause.ofFilter (c.resume d).operators (c.resume d).query.rootAlias? f
          = Clause.ofFilter d.operators d.query.rootAlias? f := by
        rw [Clause.ofFilter, Clause.ofFilter]
        simp only [resume, h.operator hkept hgeneric]
      simp only [hclause]
      cases Clause.ofFilter d.operators d.query.rootAlias? f with
      | error e => rfl
      | ok clause =>
        simp only [addClause, hfault]
        cases clause.names.findSome? d.nameFault? with
        | some fault => rfl
        | none => rfl

/-! ### All filters -/

/-- A run over filters is a run over those that are not left out. -/
theorem each_addFilter_kept (c : Compilation) (fs : List Filter) :
  Progress.each addFilter c (fs.filter fun f => !c.skips f) = Progress.each addFilter c fs
  := by
  induction fs generalizing c with
  | nil => rfl
  | cons f fs ih =>
    cases hs : c.skips f with
    | true =>
      rw [List.filter_cons_of_neg (by simp [hs]), Progress.each_cons, addFilter_of_skips hs,
        Progress.andThen_done, ih]
    | false =>
      rw [List.filter_cons_of_pos (by simp [hs]), Progress.each_cons, Progress.each_cons]
      have hcriteria := addFilter_criteria c f
      generalize c.addFilter f = p at hcriteria ⊢
      obtain ⟨d, failure⟩ := p
      cases failure with
      | some e => rfl
      | none =>
        have hskips : d.skips = c.skips := by
          funext g
          change (d.criteria.skipNull && _) = _
          rw [show d.criteria = c.criteria from hcriteria]
          rfl
        change Progress.each addFilter d _ = Progress.each addFilter d _
        rw [← hskips, ih]

/-- Only the filters that are kept are added. -/
theorem addFilters_eq_each_kept (c : Compilation) :
  c.addFilters = Progress.each addFilter c c.criteria.kept
  := (each_addFilter_kept c c.criteria.filters).symm

/-- A run over filters that are not left out adds all of them exactly when each has a clause,
no parameter is needed twice, and the parameters needed are free. -/
theorem each_addFilter_eq_done_iff
    {c : Compilation} {fs : List Filter} (handlers : c.handlers = .empty)
    (kept : ∀ f ∈ fs, c.skips f = false) (c' : Compilation) :
  Progress.each addFilter c fs = .done c'
    ↔ ∃ clauses, Clause.Of c.operators c.query.rootAlias? fs clauses
        ∧ (fs.flatMap (·.parameters c.operators)).Nodup
        ∧ (∀ name ∈ fs.flatMap (·.parameters c.operators), c.IsFree name)
        ∧ c' = c.withFilters fs clauses
  := by
  induction fs generalizing c with
  | nil =>
    constructor
    · intro h
      cases h
      exact ⟨[], .nil, List.nodup_nil, by simp, (withFilters_nil _).symm⟩
    · rintro ⟨clauses, hclauses, -, -, rfl⟩
      cases hclauses
      rw [withFilters_nil]
      rfl
  | cons f fs ih =>
    obtain ⟨hf, hfs⟩ := List.forall_mem_cons.mp kept
    rw [Progress.each_cons, Progress.andThen_eq_done_iff]
    constructor
    · rintro ⟨d, hd, hrest⟩
      obtain ⟨clause, hclause, hfree, rfl⟩ := (addFilter_eq_done_iff handlers hf d).mp hd
      obtain ⟨clauses, hclauses, hnodup, hfrees, rfl⟩ :=
        (ih (c := c.withFilters [f] [clause]) handlers hfs).mp hrest
      obtain ⟨hnodup, hfree⟩ :=
        (nodup_and_isFree_cons_iff hclause fs).mpr ⟨hfree, hnodup, hfrees⟩
      use clause :: clauses, .cons hclause hclauses, hnodup, hfree
      apply withFilters_append
    · rintro ⟨_, hclauses, hnodup, hfree, rfl⟩
      cases hclauses with
      | @cons _ clause _ clauses hclause hclauses =>
        obtain ⟨hfree, hnodup, hfrees⟩ :=
          (nodup_and_isFree_cons_iff hclause fs).mp ⟨hnodup, hfree⟩
        use c.withFilters [f] [clause]
        constructor
        · apply (addFilter_eq_done_iff handlers hf _).mpr
          use clause, hclause, hfree
        · apply (ih (c := c.withFilters [f] [clause]) handlers hfs).mpr
          use clauses, hclauses, hnodup, hfrees
          symm
          apply withFilters_append

end Compilation

end Shortlist
