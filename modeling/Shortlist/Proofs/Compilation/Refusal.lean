import Mathlib.Data.List.Induction
import Shortlist.Proofs.Clause.Refusal
import Shortlist.Proofs.Compilation.Build

/-!
# Builds that fail

A filter is refused when it has no clause, or when a parameter it needs is taken: bound on the
query, or needed by an earlier filter.  A build without handlers fails exactly when some
filter that is not left out is refused after those before it, or when an order term is bare and
there is no alias; the error is that of the first of these, filters before order terms.
-/

namespace Shortlist

namespace Filter

variable (operators : Operators) (q : Query) (earlier : List Filter) (f : Filter)

/-- Why a parameter may not be bound after earlier filters: one of them needs it or, if none
does, the query has bound it. -/
inductive Taken (name : String) : FieldFault → Prop where
  | claimed {g : Filter} (mem : g ∈ earlier) (needed : name ∈ g.parameters operators) :
    Taken name (.claimed name g.field.text)
  | bound (unclaimed : ∀ g ∈ earlier, name ∉ g.parameters operators)
      (bound : q.isBound name = true) :
    Taken name (.bound name)

/-- Why the first of the parameters that a filter needs and that are taken may not be bound. -/
def Clashes (fault : FieldFault) : Prop :=
  ∃ before name after, f.parameters operators = before ++ name :: after
    ∧ Taken operators q earlier name fault
    ∧ ∀ other ∈ before, ∀ fault, ¬ Taken operators q earlier other fault

/-- Something is wrong with a filter that stands after earlier ones. -/
def Offends : Prop :=
  (∃ tag, f.HasUnknownTag operators tag) ∨ f.IsStranded q.rootAlias?
    ∨ (∃ fault, f.IsMisfit operators fault)
    ∨ ∃ name ∈ f.parameters operators,
        q.isBound name = true ∨ ∃ g ∈ earlier, name ∈ g.parameters operators

/-- The error of a filter that stands after earlier ones: that of the first thing wrong with
it. -/
inductive Refused : Error → Prop where
  | unknownOperator {tag : String} (unknown : f.HasUnknownTag operators tag) :
    Refused (.unknownOperator f.field.text tag)
  | missingAlias (known : ∀ tag, ¬ f.HasUnknownTag operators tag)
      (stranded : f.IsStranded q.rootAlias?) :
    Refused .missingAlias
  | operand {fault : OperandFault} (known : ∀ tag, ¬ f.HasUnknownTag operators tag)
      (resolved : ¬ f.IsStranded q.rootAlias?) (misfit : f.IsMisfit operators fault) :
    Refused (.operand f.field.text fault)
  | field {fault : FieldFault} (known : ∀ tag, ¬ f.HasUnknownTag operators tag)
      (resolved : ¬ f.IsStranded q.rootAlias?) (fits : ∀ fault, ¬ f.IsMisfit operators fault)
      (clashes : f.Clashes operators q earlier fault) :
    Refused (.field f.field.text fault)

/-- Nothing is wrong with any of the filters after those before it. -/
def NoneOffends (fs : List Filter) : Prop :=
  ∀ earlier f later, fs = earlier ++ f :: later → ¬ f.Offends operators q earlier

theorem exists_taken_iff (name : String) :
  (∃ fault, Taken operators q earlier name fault)
    ↔ q.isBound name = true ∨ ∃ g ∈ earlier, name ∈ g.parameters operators
  := by
  constructor
  · rintro ⟨_, ⟨mem, needed⟩ | ⟨-, bound⟩⟩
    · exact .inr ⟨_, mem, needed⟩
    · exact .inl bound
  · intro h
    by_cases hg : ∃ g ∈ earlier, name ∈ g.parameters operators
    · obtain ⟨g, mem, needed⟩ := hg
      exact ⟨_, .claimed mem needed⟩
    · have hbound := h.resolve_right hg
      simp only [not_exists, not_and] at hg
      exact ⟨_, .bound hg hbound⟩

theorem exists_clashes_iff :
  (∃ fault, f.Clashes operators q earlier fault)
    ↔ ∃ name ∈ f.parameters operators, ∃ fault, Taken operators q earlier name fault
  := by
  constructor
  · rintro ⟨fault, before, name, after, hsplit, htaken, -⟩
    use name
    rw [hsplit]
    exact ⟨List.mem_append_right _ (List.mem_cons_self ..), fault, htaken⟩
  · rintro ⟨name, hname, htaken⟩
    classical
    have hfind : ((f.parameters operators).find?
        fun name => decide (∃ fault, Taken operators q earlier name fault)).isSome := by
      rw [List.find?_isSome]
      exact ⟨name, hname, by simpa using htaken⟩
    obtain ⟨first, hfirst⟩ := Option.isSome_iff_exists.mp hfind
    obtain ⟨htaken, before, after, hsplit, hbefore⟩ := List.find?_eq_some_iff_append.mp hfirst
    obtain ⟨fault, htaken⟩ := of_decide_eq_true htaken
    use fault, before, first, after, hsplit, htaken
    intro other hother fault hfault
    have hnot := hbefore other hother
    simp only [Bool.not_eq_true', decide_eq_false_iff_not, not_exists] at hnot
    apply hnot fault hfault

/-- Something is wrong with a filter exactly when it is refused with some error. -/
theorem exists_refused_iff :
  (∃ e, f.Refused operators q earlier e) ↔ f.Offends operators q earlier
  := by
  have hclash := exists_clashes_iff operators q earlier f
  simp only [exists_taken_iff] at hclash
  rw [Offends]
  rw [← hclash]
  constructor
  · rintro ⟨_, unknown | ⟨-, stranded⟩ | ⟨-, -, misfit⟩ | ⟨-, -, -, clashes⟩⟩
    · exact .inl ⟨_, unknown⟩
    · exact .inr (.inl stranded)
    · exact .inr (.inr (.inl ⟨_, misfit⟩))
    · exact .inr (.inr (.inr ⟨_, clashes⟩))
  · intro h
    by_cases known : ∃ tag, f.HasUnknownTag operators tag
    · obtain ⟨tag, unknown⟩ := known
      exact ⟨_, .unknownOperator unknown⟩
    · have hrest := h.resolve_left known
      simp only [not_exists] at known
      by_cases stranded : f.IsStranded q.rootAlias?
      · exact ⟨_, .missingAlias known stranded⟩
      · by_cases fits : ∃ fault, f.IsMisfit operators fault
        · obtain ⟨fault, misfit⟩ := fits
          exact ⟨_, .operand known stranded misfit⟩
        · obtain ⟨fault, clashes⟩ := (hrest.resolve_left stranded).resolve_left fits
          simp only [not_exists] at fits
          exact ⟨_, .field known stranded fits clashes⟩

/-- A filter is refused when it has no clause, and also when it has one and one of its
parameters is taken. -/
theorem refused_iff (e : Error) :
  f.Refused operators q earlier e
    ↔ Clause.ofFilter operators q.rootAlias? f = .error e
      ∨ (∃ clause, Clause.ofFilter operators q.rootAlias? f = .ok clause)
        ∧ ∃ fault, f.Clashes operators q earlier fault ∧ e = .field f.field.text fault
  := by
  have hclause := Clause.ofFilter_eq_error_iff operators q.rootAlias? f
  constructor
  · rintro (unknown | ⟨known, stranded⟩ | ⟨known, resolved, misfit⟩
      | ⟨known, resolved, fits, clashes⟩)
    · exact .inl ((hclause _).mpr (.inl ⟨_, unknown, rfl⟩))
    · exact .inl ((hclause _).mpr (.inr (.inl ⟨known, stranded, rfl⟩)))
    · exact .inl ((hclause _).mpr (.inr (.inr ⟨known, resolved, _, misfit, rfl⟩)))
    · refine .inr ⟨?_, _, clashes, rfl⟩
      cases hok : Clause.ofFilter operators q.rootAlias? f with
      | ok clause => exact ⟨clause, rfl⟩
      | error e =>
        rcases (hclause e).mp hok with ⟨tag, unknown, -⟩ | ⟨-, stranded, -⟩
          | ⟨-, -, fault, misfit, -⟩
        · cases known tag unknown
        · cases resolved stranded
        · cases fits fault misfit
  · rintro (hno | ⟨⟨clause, hok⟩, fault, clashes, rfl⟩)
    · rcases (hclause e).mp hno with ⟨tag, unknown, rfl⟩ | ⟨known, stranded, rfl⟩
        | ⟨known, resolved, fault, misfit, rfl⟩
      · apply Refused.unknownOperator unknown
      · apply Refused.missingAlias known stranded
      · apply Refused.operand known resolved misfit
    · have hnone : ∀ e, ¬ Clause.ofFilter operators q.rootAlias? f = .error e := by
        simp [hok]
      simp only [hclause, not_or, not_exists, not_and] at hnone
      have known := fun tag h => (hnone _).1 tag h rfl
      have resolved := fun h => (hnone _).2.1 known h rfl
      apply Refused.field known resolved
      · intro fault misfit
        apply (hnone _).2.2 known resolved fault misfit rfl
      · apply clashes

theorem noneOffends_nil :
  NoneOffends operators q []
  := by
  intro earlier f later h
  simp at h

theorem noneOffends_concat (fs : List Filter) :
  NoneOffends operators q (fs ++ [f])
    ↔ NoneOffends operators q fs ∧ ¬ f.Offends operators q fs
  := by
  constructor
  · intro h
    constructor
    · intro earlier g later hsplit
      apply h earlier g (later ++ [f])
      simp [hsplit]
    · apply h fs f []
      rfl
  · rintro ⟨hfs, hf⟩ earlier g later hsplit
    rcases List.eq_nil_or_concat later with rfl | ⟨later, last, rfl⟩
    · obtain ⟨rfl, hlast⟩ := List.append_inj' hsplit rfl
      cases hlast
      exact hf
    · rw [List.concat_eq_append, ← List.cons_append, ← List.append_assoc] at hsplit
      obtain ⟨hinit, -⟩ := List.append_inj' hsplit rfl
      apply hfs earlier g later hinit

/-- If something is wrong with some filter then there is a first one. -/
theorem exists_first_offending {fs : List Filter} (h : ¬ NoneOffends operators q fs) :
  ∃ earlier f later, fs = earlier ++ f :: later ∧ NoneOffends operators q earlier
    ∧ f.Offends operators q earlier
  := by
  induction fs using List.reverseRecOn with
  | nil => cases h (noneOffends_nil operators q)
  | append_singleton fs f ih =>
    by_cases hfs : NoneOffends operators q fs
    · rw [noneOffends_concat] at h
      have hf : f.Offends operators q fs := by
        by_contra hf
        apply h ⟨hfs, hf⟩
      exact ⟨fs, f, [], rfl, hfs, hf⟩
    · obtain ⟨earlier, g, later, rfl, hearlier, hg⟩ := ih hfs
      exact ⟨earlier, g, later ++ [f], by simp, hearlier, hg⟩

end Filter

namespace Compilation

/-! ### The filters -/

/-- The error of a filter without a handler: it has no clause, or a parameter of its clause is
not free. -/
theorem addFilter_failure_iff
    {c : Compilation} {f : Filter} (handlers : c.handlers = .empty) (kept : c.skips f = false)
    (e : Error) :
  (c.addFilter f).failure = some e
    ↔ Clause.ofFilter c.operators c.query.rootAlias? f = .error e
      ∨ (∃ clause, Clause.ofFilter c.operators c.query.rootAlias? f = .ok clause)
        ∧ ∃ fault, (f.parameters c.operators).findSome? c.nameFault? = some fault
          ∧ e = .field f.field.text fault
  := by
  have hstep := c.atFilter_addFilter f
  generalize c.addFilter f = p at hstep ⊢
  cases hstep with
  | skipped skips => simp [skips] at kept
  | handled _ handler_eq =>
    rw [handlers, Handlers.get?_empty] at handler_eq
    cases handler_eq
  | misfit _ _ hclause => simp [hclause, Progress.stop]
  | taken _ _ hclause hfault => simp [hclause, hfault, Progress.stop, eq_comm]
  | added _ _ hclause free =>
    have hnone := (c.findSome?_nameFault?_eq_none_iff _).mpr free
    simp [hclause, hnone, Progress.done]

/-- After filters were added to a compilation that had claimed nothing, a parameter may not be
bound exactly when it is taken. -/
theorem nameFault?_withFilters
    {c : Compilation} {earlier : List Filter} {clauses : List Clause} (unclaimed : c.claims = [])
    (hclauses : Clause.Of c.operators c.query.rootAlias? earlier clauses)
    (distinct : (earlier.flatMap (·.parameters c.operators)).Nodup)
    (name : String) (fault : FieldFault) :
  (c.withFilters earlier clauses).nameFault? name = some fault
    ↔ Filter.Taken c.operators c.query earlier name fault
  := by
  have hclaims : (c.withFilters earlier clauses).claims = claimsOf c.operators earlier := by
    rw [withFilters, unclaimed, List.nil_append]
  have hbound := Clause.isBound_withClauses c.query clauses name
  rw [hclauses.names_eq] at hbound
  rw [← keys_claimsOf] at distinct
  have howner := Keyed.get?_eq_some_iff distinct name
  have hmem : ∀ owner, (name, owner) ∈ claimsOf c.operators earlier
      ↔ ∃ g ∈ earlier, name ∈ g.parameters c.operators ∧ g.field = owner := by
    simp [claimsOf]
  rw [nameFault?, hclaims]
  cases hget : Keyed.get? name (claimsOf c.operators earlier) with
  | some owner =>
    obtain ⟨g, hg, hneeded, rfl⟩ := (hmem owner).mp ((howner owner).mp hget)
    constructor
    · rintro ⟨⟩
      apply Filter.Taken.claimed hg hneeded
    · rintro (⟨hg', hneeded'⟩ | ⟨unclaimed, -⟩)
      · have hget' := (howner _).mpr ((hmem _).mpr ⟨_, hg', hneeded', rfl⟩)
        rw [hget] at hget'
        rw [Option.some.inj hget']
      · cases unclaimed g hg hneeded
  | none =>
    have hnone : ∀ g ∈ earlier, name ∉ g.parameters c.operators := by
      intro g hg hneeded
      have hget' := (howner _).mpr ((hmem _).mpr ⟨g, hg, hneeded, rfl⟩)
      rw [hget] at hget'
      cases hget'
    have hsame : (c.withFilters earlier clauses).query.isBound name = true
        ↔ c.query.isBound name = true := by
      apply hbound.trans (or_iff_left _)
      simpa using hnone
    simp only [Option.ite_none_right_eq_some, Option.some.injEq, hsame]
    constructor
    · rintro ⟨bound, rfl⟩
      apply Filter.Taken.bound hnone bound
    · rintro (⟨hg, hneeded⟩ | ⟨-, bound⟩)
      · cases hnone _ hg hneeded
      · exact ⟨bound, rfl⟩

/-- The first parameter that may not be bound after filters were added is the one that
clashes. -/
theorem findSome?_nameFault?_withFilters
    {c : Compilation} {earlier : List Filter} {clauses : List Clause} (unclaimed : c.claims = [])
    (hclauses : Clause.Of c.operators c.query.rootAlias? earlier clauses)
    (distinct : (earlier.flatMap (·.parameters c.operators)).Nodup)
    (f : Filter) (fault : FieldFault) :
  (f.parameters c.operators).findSome? (c.withFilters earlier clauses).nameFault? = some fault
    ↔ f.Clashes c.operators c.query earlier fault
  := by
  have htaken := nameFault?_withFilters unclaimed hclauses distinct
  have hfree : ∀ name, (c.withFilters earlier clauses).nameFault? name = none
      ↔ ∀ fault, ¬ Filter.Taken c.operators c.query earlier name fault := by
    intro name
    simp only [← htaken, Option.eq_none_iff_forall_ne_some, ne_eq]
  simp only [List.findSome?_eq_some_iff, htaken, hfree, Filter.Clashes]

/-- A filter is refused after earlier ones with exactly the errors that stop the step for it. -/
theorem addFilter_withFilters_failure_iff
    {c : Compilation} {earlier : List Filter} {clauses : List Clause} {f : Filter}
    (handlers : c.handlers = .empty) (unclaimed : c.claims = [])
    (hclauses : Clause.Of c.operators c.query.rootAlias? earlier clauses)
    (distinct : (earlier.flatMap (·.parameters c.operators)).Nodup) (kept : c.skips f = false)
    (e : Error) :
  ((c.withFilters earlier clauses).addFilter f).failure = some e
    ↔ f.Refused c.operators c.query earlier e
  := by
  rw [addFilter_failure_iff (c := c.withFilters earlier clauses) handlers kept,
    Filter.refused_iff]
  simp only [← findSome?_nameFault?_withFilters unclaimed hclauses distinct f]
  rfl

/-- A run over filters finishes exactly when nothing is wrong with any of them. -/
theorem exists_each_addFilter_eq_done_iff
    {c : Compilation} (handlers : c.handlers = .empty) (unclaimed : c.claims = [])
    {fs : List Filter} (kept : ∀ f ∈ fs, c.skips f = false) :
  (∃ d, Progress.each addFilter c fs = .done d) ↔ Filter.NoneOffends c.operators c.query fs
  := by
  induction fs using List.reverseRecOn with
  | nil => simp [Filter.noneOffends_nil]
  | append_singleton fs f ih =>
    rw [List.forall_mem_append] at kept
    obtain ⟨hfs, hf⟩ := kept
    have hf := hf f (List.mem_singleton_self f)
    rw [Filter.noneOffends_concat, ← ih hfs, Progress.each_append]
    simp only [Progress.andThen_eq_done_iff, Progress.each_cons, Progress.each_nil]
    constructor
    · rintro ⟨_, d, hd, e, he, -⟩
      obtain ⟨clauses, hclauses, distinct, -, rfl⟩ :=
        (each_addFilter_eq_done_iff handlers hfs d).mp hd
      use ⟨_, hd⟩
      rw [← Filter.exists_refused_iff]
      rintro ⟨e', refused⟩
      have hfailure := (addFilter_withFilters_failure_iff handlers unclaimed hclauses distinct hf
        e').mpr refused
      rw [he] at hfailure
      cases hfailure
    · rintro ⟨⟨d, hd⟩, hoffends⟩
      obtain ⟨clauses, hclauses, distinct, -, rfl⟩ :=
        (each_addFilter_eq_done_iff handlers hfs d).mp hd
      rw [← Filter.exists_refused_iff] at hoffends
      obtain ⟨e, he⟩ : ∃ e, (c.withFilters fs clauses).addFilter f = .done e := by
        rw [Progress.eq_done_iff]
        intro e' hfailure
        apply hoffends
        use e'
        apply (addFilter_withFilters_failure_iff handlers unclaimed hclauses distinct hf e').mp
        apply hfailure
      exact ⟨e, _, hd, e, he, rfl⟩

/-- A run over filters stops at the first filter with which something is wrong. -/
theorem each_addFilter_failure_iff
    {c : Compilation} (handlers : c.handlers = .empty) (unclaimed : c.claims = [])
    {fs : List Filter} (kept : ∀ f ∈ fs, c.skips f = false) (e : Error) :
  (Progress.each addFilter c fs).failure = some e
    ↔ ∃ earlier f later, fs = earlier ++ f :: later
        ∧ Filter.NoneOffends c.operators c.query earlier ∧ f.Refused c.operators c.query earlier e
  := by
  rw [Progress.each_failure_iff]
  constructor
  · rintro ⟨earlier, f, later, d, rfl, hd, hf⟩
    rw [List.forall_mem_append, List.forall_mem_cons] at kept
    use earlier, f, later, rfl
    constructor
    · apply (exists_each_addFilter_eq_done_iff handlers unclaimed kept.1).mp ⟨d, hd⟩
    · obtain ⟨clauses, hclauses, distinct, -, rfl⟩ :=
        (each_addFilter_eq_done_iff handlers kept.1 d).mp hd
      apply (addFilter_withFilters_failure_iff handlers unclaimed hclauses distinct kept.2.1 e).mp
      apply hf
  · rintro ⟨earlier, f, later, rfl, hearlier, refused⟩
    rw [List.forall_mem_append, List.forall_mem_cons] at kept
    obtain ⟨d, hd⟩ := (exists_each_addFilter_eq_done_iff handlers unclaimed kept.1).mpr hearlier
    use earlier, f, later, d, rfl, hd
    obtain ⟨clauses, hclauses, distinct, -, rfl⟩ :=
      (each_addFilter_eq_done_iff handlers kept.1 d).mp hd
    apply (addFilter_withFilters_failure_iff handlers unclaimed hclauses distinct kept.2.1 e).mpr
    apply refused

/-! ### The order -/

/-- The error of an order term: it is bare and there is no alias. -/
theorem addOrderTerm_failure_iff (c : Compilation) (t : OrderTerm) (e : Error) :
  (c.addOrderTerm t).failure = some e
    ↔ t.field.isQualified = false ∧ LacksAlias c.query.rootAlias? ∧ e = .missingAlias
  := by
  rw [← Field.qualify_eq_error_iff, addOrderTerm]
  cases t.field.qualify c.query.rootAlias? <;> simp [Progress.stop, Progress.done]

/-- A run over order terms stops when one is bare and there is no alias. -/
theorem each_addOrderTerm_failure_iff (c : Compilation) (ts : List OrderTerm) (e : Error) :
  (Progress.each addOrderTerm c ts).failure = some e
    ↔ (∃ t ∈ ts, t.field.isQualified = false) ∧ LacksAlias c.query.rootAlias?
        ∧ e = .missingAlias
  := by
  induction ts generalizing c with
  | nil =>
    rw [Progress.each_nil]
    simp [Progress.done]
  | cons t ts ih =>
    rw [Progress.each_cons, Progress.andThen_failure_iff]
    constructor
    · rintro (h | ⟨d, hd, h⟩)
      · obtain ⟨bare, lacks, rfl⟩ := (addOrderTerm_failure_iff c t e).mp h
        exact ⟨⟨t, List.mem_cons_self .., bare⟩, lacks, rfl⟩
      · obtain ⟨column, -, rfl⟩ := (addOrderTerm_eq_done_iff c t d).mp hd
        obtain ⟨⟨t', ht', bare⟩, lacks, rfl⟩ := (ih _).mp h
        exact ⟨⟨t', List.mem_cons_of_mem _ ht', bare⟩, lacks, rfl⟩
    · rintro ⟨⟨t', ht', bare⟩, lacks, rfl⟩
      cases ht : t.field.isQualified with
      | false =>
        left
        apply (addOrderTerm_failure_iff c t _).mpr ⟨ht, lacks, rfl⟩
      | true =>
        obtain ⟨d, hd⟩ : ∃ d, c.addOrderTerm t = .done d := by
          rw [Progress.eq_done_iff]
          intro e hfailure
          obtain ⟨bare, -, -⟩ := (addOrderTerm_failure_iff c t e).mp hfailure
          rw [ht] at bare
          cases bare
        obtain ⟨column, -, rfl⟩ := (addOrderTerm_eq_done_iff c t d).mp hd
        right
        use c.withOrder [(column, t.direction)], hd
        apply (ih _).mpr
        refine ⟨⟨t', ?_, bare⟩, lacks, rfl⟩
        rcases List.mem_cons.mp ht' with rfl | ht'
        · rw [ht] at bare
          cases bare
        · apply ht'

/-! ### All phases -/

theorem build_eq_error_iff_run (c : Compilation) (e : Error) :
  c.build = .error e
    ↔ c.addFilters.failure = some e
      ∨ ∃ d, c.addFilters = .done d ∧ d.addOrder.failure = some e
  := by
  have hresult : c.build = .error e ↔ c.run.failure = some e := by
    rw [← Progress.result_eq_error_iff, build]
    cases c.run.result <;> simp [Except.map]
  rw [hresult, run, Progress.andThen_failure_iff, Progress.andThen_failure_iff]
  simp [Progress.done]

/-- The error of a build is that of the first filter with which something is wrong, and of the
order terms only when there is none. -/
theorem build_eq_error_iff_first
    {c : Compilation} (handlers : c.handlers = .empty) (unclaimed : c.claims = []) (e : Error) :
  c.build = .error e
    ↔ (∃ earlier f later, c.criteria.kept = earlier ++ f :: later
          ∧ Filter.NoneOffends c.operators c.query earlier
          ∧ f.Refused c.operators c.query earlier e)
      ∨ Filter.NoneOffends c.operators c.query c.criteria.kept
        ∧ (∃ t ∈ c.criteria.order, t.field.isQualified = false)
        ∧ LacksAlias c.query.rootAlias? ∧ e = .missingAlias
  := by
  have hkept : ∀ f ∈ c.criteria.kept, c.skips f = false := fun _ => skips_of_mem_kept
  rw [build_eq_error_iff_run, addFilters_eq_each_kept,
    each_addFilter_failure_iff handlers unclaimed hkept,
    ← exists_each_addFilter_eq_done_iff handlers unclaimed hkept]
  apply or_congr_right
  constructor
  · rintro ⟨d, hd, hfailure⟩
    obtain ⟨clauses, -, -, -, rfl⟩ := (each_addFilter_eq_done_iff handlers hkept d).mp hd
    use ⟨_, hd⟩
    apply (each_addOrderTerm_failure_iff ..).mp hfailure
  · rintro ⟨⟨d, hd⟩, hfailure⟩
    use d, hd
    obtain ⟨clauses, -, -, -, rfl⟩ := (each_addFilter_eq_done_iff handlers hkept d).mp hd
    apply (each_addOrderTerm_failure_iff (c.withFilters c.criteria.kept clauses) _ e).mpr hfailure

/-- A build without handlers fails exactly when something is wrong with a filter that is not
left out, or an order term is bare and there is no alias.  The error is that of the first
filter with which something is wrong, and of the order terms only when there is none. -/
theorem build_eq_error_iff (criteria : Criteria) (operators : Operators) (q : Query) :
  ((∃ e, ((start q criteria).setOperators operators).build = .error e)
      ↔ (∃ earlier f later, criteria.kept = earlier ++ f :: later
            ∧ f.Offends operators q earlier)
        ∨ (∃ t ∈ criteria.order, t.field.isQualified = false) ∧ LacksAlias q.rootAlias?)
    ∧ ∀ e, ((start q criteria).setOperators operators).build = .error e
      ↔ (∃ earlier f later, criteria.kept = earlier ++ f :: later
            ∧ Filter.NoneOffends operators q earlier ∧ f.Refused operators q earlier e)
        ∨ Filter.NoneOffends operators q criteria.kept
          ∧ (∃ t ∈ criteria.order, t.field.isQualified = false) ∧ LacksAlias q.rootAlias?
          ∧ e = .missingAlias
  := by
  have herror := build_eq_error_iff_first (c := (start q criteria).setOperators operators) rfl rfl
  refine ⟨⟨?_, ?_⟩, herror⟩
  · rintro ⟨e, he⟩
    rcases (herror e).mp he with ⟨earlier, f, later, hsplit, -, refused⟩ | ⟨-, hbare, lacks, -⟩
    · exact .inl ⟨earlier, f, later, hsplit,
        (Filter.exists_refused_iff operators q earlier f).mp ⟨e, refused⟩⟩
    · exact .inr ⟨hbare, lacks⟩
  · intro h
    by_cases hnone : Filter.NoneOffends operators q criteria.kept
    · rcases h with ⟨earlier, f, later, hsplit, hf⟩ | ⟨hbare, lacks⟩
      · cases hnone earlier f later hsplit hf
      · exact ⟨_, (herror _).mpr (.inr ⟨hnone, hbare, lacks, rfl⟩)⟩
    · obtain ⟨earlier, f, later, hsplit, hearlier, hf⟩ :=
        Filter.exists_first_offending operators q hnone
      obtain ⟨e, refused⟩ := (Filter.exists_refused_iff operators q earlier f).mpr hf
      exact ⟨e, (herror e).mpr (.inl ⟨earlier, f, later, hsplit, hearlier, refused⟩)⟩

end Compilation

end Shortlist
