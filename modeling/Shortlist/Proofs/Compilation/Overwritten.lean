import Shortlist.Proofs.Compilation.Failure

/-!
# Handlers that bind

Nothing keeps a handler from binding a parameter that is bound already.  Where every handler binds
the operand to the parameter of the field and compares a column with it, a build that succeeds has
put the bindings of all filters one after the other, so the last filter that needs a parameter has
its value there.  A filter without a handler is refused when its parameter is taken, hence a value
is lost only to a later filter with a handler.
-/

namespace Shortlist

/-! ### What a filter adds -/

/-- Where the handler finishes, it has bound the operand to the parameter of the field and added one
predicate, which compares a column with it.  It may join tables and select columns as it likes. -/
def Handler.BindsOwn (handler : Handler Query) : Prop :=
  ∀ q field v q', handler q field v = .done q' →
    q'.rootAlias? = q.rootAlias?
      ∧ q'.parameters = Keyed.put field.parameter v.toValue q.parameters
      ∧ ∃ column op, q'.predicates = q.predicates ++ [.compare column op field.parameter]

/-- All handlers bind the operand of their field. -/
def Handlers.BindOwn (handlers : Handlers Query) : Prop :=
  ∀ name handler, handlers.get? name = some handler → handler.BindsOwn

/-- The handler that binds the operand and compares a column with it. -/
def Handler.comparing (column : String) (op : Operator) : Handler Query := fun q field v =>
  .done ((q.bind field.parameter v.toValue).addPredicate (.compare column op field.parameter))

theorem Handler.bindsOwn_comparing (column : String) (op : Operator) :
  (comparing column op).BindsOwn
  := by
  rintro q field v _ ⟨⟩
  exact ⟨rfl, rfl, column, op, rfl⟩

theorem Handlers.BindOwn.empty :
  (Handlers.empty : Handlers Query).BindOwn
  := by
  rintro name handler ⟨⟩

theorem Handlers.BindOwn.register {handlers : Handlers Query} (own : handlers.BindOwn)
    {handler : Handler Query} (h : handler.BindsOwn) (name : String) :
  (handlers.register name handler).BindOwn
  := by
  intro other handler' heq
  rw [get?_register] at heq
  split at heq
  · cases heq
    exact h
  · exact own other handler' heq

/-- What a filter adds to a query: its clause when it has no handler, and a comparison with its
operand when it has one. -/
inductive Clause.OfEntry (operators : Operators) (handlers : Handlers Query)
    (rootAlias? : Option String) (f : Filter) : Clause → Prop
  | generic {c : Clause} (generic : handlers.get? f.field.text = none)
      (hclause : ofFilter operators rootAlias? f = .ok c) :
    OfEntry operators handlers rootAlias? f c
  | handled {handler : Handler Query} (handler_eq : handlers.get? f.field.text = some handler)
      (column : String) (op : Operator) :
    OfEntry operators handlers rootAlias? f
      ⟨.compare column op f.field.parameter, [(f.field.parameter, f.operand.toValue)]⟩

namespace Clause.OfEntry

variable {operators : Operators} {handlers : Handlers Query} {rootAlias? : Option String}
  {f : Filter} {c : Clause}

theorem parameters_eq (h : OfEntry operators handlers rootAlias? f c) :
  c.predicate.parameters = c.names
  := by
  cases h with
  | generic _ hclause =>
    obtain ⟨op, column, -, -, hc⟩ := (ofFilter_eq_ok_iff ..).mp hclause
    apply parameters_predicate_of_ofOperand hc
  | handled => rfl

theorem nodup_names (h : OfEntry operators handlers rootAlias? f c) :
  c.names.Nodup
  := by
  cases h with
  | generic _ hclause =>
    rw [names_of_ofFilter hclause]
    apply Filter.parameters_nodup
  | handled => apply List.nodup_singleton

/-- What a filter with a handler adds names one parameter, which is that of its field. -/
theorem names_of_handled (h : OfEntry operators handlers rootAlias? f c)
    {handler : Handler Query} (handler_eq : handlers.get? f.field.text = some handler) :
  c.names = [f.field.parameter]
  := by
  cases h with
  | generic generic =>
    rw [generic] at handler_eq
    cases handler_eq
  | handled => rfl

end Clause.OfEntry

namespace Compilation

/-- Filters with what each of them adds, and the compilation after they were added: their predicates
stand behind those before, their bindings were put one after the other, and a filter without a
handler has taken no parameter that was bound before or that an earlier filter needs. -/
structure Adds (c : Compilation) (entries : List (Filter × Clause)) (d : Compilation) : Prop where
  rest : d = { c with query := d.query, claims := d.claims }
  rootAlias_eq : d.query.rootAlias? = c.query.rootAlias?
  ofEntry : ∀ e ∈ entries, Clause.OfEntry c.operators c.handlers c.query.rootAlias? e.1 e.2
  predicates : d.query.predicates = c.query.predicates ++ entries.map (·.2.predicate)
  parameters : d.query.parameters
    = Keyed.putEach c.query.parameters (entries.flatMap (·.2.bindings))
  unbound : ∀ e ∈ entries, c.handlers.get? e.1.field.text = none →
    ∀ name ∈ e.2.names, c.query.isBound name = false
  fresh : entries.Pairwise fun e e' => c.handlers.get? e'.1.field.text = none →
    ∀ name ∈ e'.2.names, name ∉ e.2.names

namespace Adds

variable {c d e : Compilation} {entries later : List (Filter × Clause)}

theorem nil (c : Compilation) :
  c.Adds [] c
  where
  rest := rfl
  rootAlias_eq := rfl
  ofEntry := by simp
  predicates := by simp
  parameters := rfl
  unbound := by simp
  fresh := .nil

/-- What is not bound was not bound before, and no filter that was added needs it. -/
theorem isBound_eq_false_iff (h : c.Adds entries d) (name : String) :
  d.query.isBound name = false
    ↔ c.query.isBound name = false ∧ ∀ e ∈ entries, name ∉ e.2.names
  := by
  have hkeys : name ∈ Keyed.keys (entries.flatMap (·.2.bindings)).reverse
      ↔ ∃ e ∈ entries, name ∈ e.2.names := by
    rw [Keyed.keys, List.map_reverse, List.mem_reverse, List.map_flatMap, List.mem_flatMap]
    rfl
  rw [← Bool.not_eq_true, ← Bool.not_eq_true, Query.isBound, Query.isBound, Query.parameter?,
    Query.parameter?, h.parameters, Keyed.get?_putEach, Option.isSome_or, Bool.or_eq_true,
    Keyed.get?_isSome, hkeys, not_or, and_comm]
  simp

theorem append (h : c.Adds entries d) (h' : d.Adds later e) :
  c.Adds (entries ++ later) e
  := by
  have hoperators : d.operators = c.operators := by rw [h.rest]
  have hhandlers : d.handlers = c.handlers := by rw [h.rest]
  have hunbound : ∀ e ∈ later, c.handlers.get? e.1.field.text = none → ∀ name ∈ e.2.names,
      c.query.isBound name = false ∧ ∀ e ∈ entries, name ∉ e.2.names := by
    intro e he generic name hname
    rw [← hhandlers] at generic
    apply (h.isBound_eq_false_iff name).mp (h'.unbound e he generic name hname)
  constructor
  · rw [h'.rest, h.rest]
  · rw [h'.rootAlias_eq, h.rootAlias_eq]
  · rw [List.forall_mem_append]
    use h.ofEntry
    rw [← hoperators, ← hhandlers, ← h.rootAlias_eq]
    exact h'.ofEntry
  · rw [h'.predicates, h.predicates, List.map_append, List.append_assoc]
  · rw [h'.parameters, h.parameters, List.flatMap_append, Keyed.putEach_append]
  · rw [List.forall_mem_append]
    use h.unbound
    intro e he generic name hname
    apply (hunbound e he generic name hname).1
  · rw [List.pairwise_append]
    use h.fresh
    have hfresh := h'.fresh
    rw [hhandlers] at hfresh
    use hfresh
    intro e he e' he' generic name hname
    apply (hunbound e' he' generic name hname).2 e he

/-- The value that a filter has bound is found afterwards, unless a filter that is added later and
has a handler needs the parameter as well. -/
theorem parameter?_eq (h : c.Adds entries d) {earlier : List (Filter × Clause)} {f : Filter}
    {clause : Clause} (hentries : entries = earlier ++ (f, clause) :: later) {b : String × Value}
    (hb : b ∈ clause.bindings)
    (hlater : ∀ e ∈ later, (c.handlers.get? e.1.field.text).isSome → e.1.field.parameter ≠ b.1) :
  d.query.parameter? b.1 = some b.2
  := by
  have hof := h.ofEntry
  have hfresh := h.fresh
  rw [hentries, List.forall_mem_append, List.forall_mem_cons] at hof
  rw [hentries, List.pairwise_append, List.pairwise_cons] at hfresh
  have hname : b.1 ∈ clause.names := List.mem_map_of_mem hb
  -- nothing that comes later needs the name
  have hnone : Keyed.get? b.1 (later.flatMap (·.2.bindings)).reverse = none := by
    rw [Keyed.get?_eq_none_iff, Keyed.keys, List.map_reverse, List.mem_reverse, List.map_flatMap]
    intro hmem
    obtain ⟨e, he, hmem⟩ := List.mem_flatMap.mp hmem
    change b.1 ∈ e.2.names at hmem
    cases hgeneric : c.handlers.get? e.1.field.text with
    | none => exact hfresh.2.1.1 e he hgeneric b.1 hmem hname
    | some handler =>
      rw [(hof.2.2 e he).names_of_handled hgeneric, List.mem_singleton] at hmem
      exact hlater e he (by rw [hgeneric]; rfl) hmem.symm
  have hsome : Keyed.get? b.1 clause.bindings.reverse = some b.2 := by
    apply (Keyed.get?_eq_some_iff _ _ _).mpr (List.mem_reverse.mpr hb)
    rw [Keyed.keys, List.map_reverse, List.nodup_reverse]
    exact hof.2.1.nodup_names
  rw [Query.parameter?, h.parameters, hentries, List.flatMap_append, List.flatMap_cons,
    Keyed.putEach_append, Keyed.putEach_append, Keyed.get?_putEach, Keyed.get?_putEach, hnone,
    hsome]
  rfl

variable {f : Filter}

/-- A handler that finishes has bound the operand of its filter. -/
theorem exists_of_handled {handler : Handler Query} (own : handler.BindsOwn)
    (handler_eq : c.handlers.get? f.field.text = some handler) {q : Query}
    (h : handler c.query f.field f.operand = .done q) :
  ∃ clause, c.Adds [(f, clause)] { c with query := q }
  := by
  obtain ⟨hroot, hparameters, column, op, hpredicates⟩ := own _ _ _ _ h
  use ⟨.compare column op f.field.parameter, [(f.field.parameter, f.operand.toValue)]⟩
  constructor
  · rfl
  · exact hroot
  · rw [List.forall_mem_singleton]
    exact .handled handler_eq column op
  · exact hpredicates
  · exact hparameters
  · rw [List.forall_mem_singleton]
    intro generic
    rw [generic] at handler_eq
    cases handler_eq
  · apply List.pairwise_singleton

/-- A filter without a handler binds parameters that are free. -/
theorem of_clause {clause : Clause} (generic : c.handlers.get? f.field.text = none)
    (hclause : Clause.ofFilter c.operators c.query.rootAlias? f = .ok clause)
    (free : ∀ name ∈ f.parameters c.operators, c.IsFree name) :
  c.Adds [(f, clause)] (c.withFilters [f] [clause])
  := by
  have hnames : Keyed.keys clause.bindings = f.parameters c.operators :=
    Clause.names_of_ofFilter hclause
  have hunbound : ∀ name ∈ Keyed.keys clause.bindings, c.query.isBound name = false := by
    rw [hnames]
    intro name hname
    exact (free name hname).2
  constructor
  · rfl
  · rfl
  · rw [List.forall_mem_singleton]
    exact .generic generic hclause
  · rfl
  · rw [List.flatMap_singleton, Keyed.putEach_of_fresh]
    · exact congrArg _ (List.flatMap_singleton ..)
    · intro name hname
      apply (c.query.isBound_eq_false_iff name).mp (hunbound name hname)
    · rw [hnames]
      apply Filter.parameters_nodup
  · rw [List.forall_mem_singleton]
    intro _
    exact hunbound
  · apply List.pairwise_singleton

end Adds

variable {c d : Compilation}

/-- A filter that is not left out adds its clause, or what its handler adds. -/
theorem exists_adds_of_addFilter (own : c.handlers.BindOwn) {f : Filter}
    (kept : c.skips f = false) (h : c.addFilter f = .done d) :
  ∃ clause, c.Adds [(f, clause)] d
  := by
  have hstep := c.atFilter_addFilter f
  rw [h] at hstep
  generalize hp : Progress.done d = p at hstep
  cases hstep with
  | skipped skips =>
    rw [skips] at kept
    cases kept
  | @handled handler _ handler_eq =>
    obtain ⟨q, hq, rfl⟩ := (Progress.map_eq_done_iff ..).mp hp.symm
    apply Adds.exists_of_handled (own _ handler handler_eq) handler_eq hq
  | misfit => cases hp
  | taken => cases hp
  | @added clause _ generic hclause free =>
    cases hp
    use clause
    apply Adds.of_clause generic hclause free

/-- A run over filters adds all that are not left out. -/
theorem exists_adds_of_each (own : c.handlers.BindOwn) {fs : List Filter}
    (kept : ∀ f ∈ fs, c.skips f = false) (h : Progress.each addFilter c fs = .done d) :
  ∃ entries, entries.map (·.1) = fs ∧ c.Adds entries d
  := by
  induction fs generalizing c with
  | nil =>
    cases h
    exact ⟨[], rfl, .nil _⟩
  | cons f fs ih =>
    obtain ⟨hf, hfs⟩ := List.forall_mem_cons.mp kept
    rw [Progress.each_cons, Progress.andThen_eq_done_iff] at h
    obtain ⟨e, he, hd⟩ := h
    obtain ⟨clause, hadds⟩ := exists_adds_of_addFilter own hf he
    have hown : e.handlers.BindOwn := by
      rw [hadds.rest]
      exact own
    have hkept : ∀ g ∈ fs, e.skips g = false := by
      rw [hadds.rest]
      exact hfs
    obtain ⟨entries, rfl, hentries⟩ := ih hown hkept hd
    exact ⟨(f, clause) :: entries, rfl, hadds.append hentries⟩

/-- The phases after the filters leave predicates and parameters alone. -/
theorem exists_addFilters_of_build_eq_ok {q : Query} (h : c.build = .ok q) :
  ∃ d, c.addFilters = .done d ∧ q.predicates = d.query.predicates
    ∧ q.parameters = d.query.parameters
  := by
  obtain ⟨_, hrun, rfl⟩ := (build_eq_ok_iff_run ..).mp h
  obtain ⟨d, e, hd, he, rfl⟩ := (run_eq_done_iff ..).mp hrun
  obtain ⟨terms, -, rfl⟩ := (each_addOrderTerm_eq_done_iff ..).mp he
  use d, hd
  rw [setPage, setGrouping]
  split <;> split <;> exact ⟨rfl, rfl⟩

/-- A filter without a handler is refused when a parameter that its clause needs is bound. -/
theorem addFilter_failure_of_isBound {f : Filter} (kept : c.skips f = false)
    (generic : c.handlers.get? f.field.text = none) {clause : Clause}
    (hclause : Clause.ofFilter c.operators c.query.rootAlias? f = .ok clause) {name : String}
    (hname : name ∈ clause.names) (bound : c.query.isBound name = true) :
  ∃ fault, (c.addFilter f).failure = some (.field f.field.text fault)
  := by
  have hstep := c.atFilter_addFilter f
  generalize c.addFilter f = p at hstep ⊢
  cases hstep with
  | skipped skips =>
    rw [skips] at kept
    cases kept
  | handled _ handler_eq =>
    rw [generic] at handler_eq
    cases handler_eq
  | misfit _ _ hmisfit =>
    rw [hclause] at hmisfit
    cases hmisfit
  | taken => exact ⟨_, rfl⟩
  | added _ _ _ free =>
    rw [Clause.names_of_ofFilter hclause] at hname
    rw [(free name hname).2] at bound
    cases bound

theorem build_eq_error_of_isBound {earlier later : List Filter} {f : Filter} {q : Query}
    (hfilters : c.criteria.filters = earlier ++ f :: later)
    (finished : c.filtered earlier = .done q) (kept : c.skips f = false)
    (generic : c.handlers.get? f.field.text = none) {clause : Clause}
    (hclause : Clause.ofFilter c.operators q.rootAlias? f = .ok clause) {name : String}
    (hname : name ∈ clause.names) (bound : q.isBound name = true) :
  ∃ fault, c.build = .error (.field f.field.text fault)
  := by
  rw [filtered_eq_each] at finished
  obtain ⟨d, hd, rfl⟩ := (Progress.map_eq_done_iff ..).mp finished
  obtain ⟨q, claims, hstate⟩ := c.exists_each_addFilter_state_eq earlier
  rw [hd] at hstate
  obtain rfl : d = _ := hstate
  obtain ⟨fault, hfailure⟩ := addFilter_failure_of_isBound
    (c := { c with query := q, claims := claims }) kept generic hclause hname bound
  use fault
  apply (build_eq_error_iff_exists_stops ..).mpr
  left
  use earlier, f
  apply (stopsAtFilter_iff ..).mpr
  exact ⟨later, _, hfilters, hd, hfailure⟩

/-- Where every handler binds the operand of its field, a build that succeeds has put the bindings
of all filters one after the other.  The parameters that the predicate of a filter names have the
values of the filter, unless a later filter with a handler needs such a parameter too.  A filter
without a handler shares no parameter with the query or an earlier filter: when a parameter that it
needs is bound by its turn, the build fails with an error that names its field. -/
theorem parameter?_of_build_eq_ok (own : c.handlers.BindOwn) :
  (∀ q, c.build = .ok q → ∃ entries : List (Filter × Clause),
      entries.map (·.1) = c.criteria.kept
      ∧ (∀ e ∈ entries, Clause.OfEntry c.operators c.handlers c.query.rootAlias? e.1 e.2)
      ∧ q.predicates = c.query.predicates ++ entries.map (·.2.predicate)
      ∧ q.parameters = Keyed.putEach c.query.parameters (entries.flatMap (·.2.bindings))
      ∧ ∀ earlier f clause later, entries = earlier ++ (f, clause) :: later →
          clause.predicate.parameters = clause.names
          ∧ (∀ b ∈ clause.bindings,
              (∀ e ∈ later, (c.handlers.get? e.1.field.text).isSome →
                e.1.field.parameter ≠ b.1) →
              q.parameter? b.1 = some b.2)
          ∧ (c.handlers.get? f.field.text = none → ∀ name ∈ clause.names,
              c.query.isBound name = false ∧ ∀ e ∈ earlier, name ∉ e.2.names))
    ∧ ∀ earlier f later q clause, c.criteria.filters = earlier ++ f :: later →
        c.filtered earlier = .done q → c.skips f = false →
        c.handlers.get? f.field.text = none →
        Clause.ofFilter c.operators q.rootAlias? f = .ok clause →
        (∃ name ∈ clause.names, q.isBound name = true) →
        ∃ fault, c.build = .error (.field f.field.text fault)
  := by
  constructor
  · intro q h
    obtain ⟨d, hd, hpredicates, hparameters⟩ := exists_addFilters_of_build_eq_ok h
    rw [addFilters_eq_each_kept] at hd
    obtain ⟨entries, hentries, hadds⟩ := exists_adds_of_each own (fun _ => skips_of_mem_kept) hd
    use entries, hentries, hadds.ofEntry, hpredicates.trans hadds.predicates,
      hparameters.trans hadds.parameters
    intro earlier f clause later hsplit
    have hmem : (f, clause) ∈ entries := by
      rw [hsplit]
      apply List.mem_append_right _ (List.mem_cons_self ..)
    use (hadds.ofEntry _ hmem).parameters_eq
    constructor
    · intro b hb hlater
      rw [Query.parameter?, hparameters]
      apply hadds.parameter?_eq hsplit hb hlater
    · intro generic name hname
      use hadds.unbound _ hmem generic name hname
      have hfresh := hadds.fresh
      rw [hsplit, List.pairwise_append] at hfresh
      intro e he
      apply hfresh.2.2 e he _ (List.mem_cons_self ..) generic name hname
  · rintro earlier f later q clause hfilters finished kept generic hclause ⟨name, hname, bound⟩
    apply build_eq_error_of_isBound hfilters finished kept generic hclause hname bound

/-- The range of posts and their author, whose handler is called last. -/
theorem parameter?_of_build_eq_ok_posts :
  ∃ (c : Compilation) (q : Query) (entries : List (Filter × Clause)), c.handlers.BindOwn
    ∧ c.criteria.kept.map (·.field.text) = ["price", "author.name"]
    ∧ (c.handlers.get? "price").isSome = false ∧ (c.handlers.get? "author.name").isSome = true
    ∧ c.build = .ok q ∧ entries.map (·.1) = c.criteria.kept
    ∧ q.predicates = c.query.predicates ++ entries.map (·.2.predicate)
    ∧ q.parameters = Keyed.putEach c.query.parameters (entries.flatMap (·.2.bindings))
    ∧ Keyed.keys q.parameters = ["price_from", "price_to", "author_name"]
  := by
  let handlers : Handlers Query := Handlers.empty.register "author_name" (.comparing "a.name" .eq)
  have own : handlers.BindOwn := .register .empty (Handler.bindsOwn_comparing _ _) _
  let q : Query := ⟨.postgres, "posts", some "post", [], [], [], [], [], none, none, none⟩
  let criteria : Criteria := ⟨0, 1, [], none,
    [⟨⟨"price", by decide⟩, .list [.int 1, .int 5]⟩, ⟨⟨"author.name", by decide⟩, .string "Ann"⟩],
    .ofList [("price", "between")], true⟩
  obtain ⟨q', hq', hkeys⟩ : ∃ q', ((start q criteria).withHandlers handlers).build = .ok q'
      ∧ Keyed.keys q'.parameters = ["price_from", "price_to", "author_name"] :=
    exists_eq_ok_of_map_toOption (by decide +kernel)
  obtain ⟨entries, hentries, -, hpredicates, hparameters, -⟩ :=
    (parameter?_of_build_eq_ok (c := (start q criteria).withHandlers handlers) own).1 q' hq'
  exact ⟨_, q', entries, own, rfl, by decide +kernel, by decide +kernel, hq', hentries, hpredicates,
    hparameters, hkeys⟩

/-- Values are lost to handlers.  Two filters for the name of an author share a handler, which binds
their parameter twice; and the handler of a price takes the lower bound of a range. -/
theorem parameter?_of_build_overwritten :
  ∃ (c : Compilation) (q : Query), c.handlers.BindOwn
    ∧ c.criteria.kept.map (fun f => (f.field.text, c.query.dialect.literal f.operand.toValue))
      = [("author.name", "'Ann'"), ("author_name", "'Bob'"), ("price", "(1, 5)"),
          ("price_from", "9")]
    ∧ c.build = .ok q
    ∧ q.predicates.map (·.parameters)
      = [["author_name"], ["author_name"], ["price_from", "price_to"], ["price_from"]]
    ∧ q.parameters.map (fun (name, v) => (name, c.query.dialect.literal v))
      = [("author_name", "'Bob'"), ("price_from", "9"), ("price_to", "5")]
  := by
  let handlers : Handlers Query := (Handlers.empty.register "author_name"
    (.comparing "a.name" .eq)).register "price_from" (.comparing "o.price" .gte)
  have own : handlers.BindOwn := by
    apply Handlers.BindOwn.register _ (Handler.bindsOwn_comparing _ _)
    apply Handlers.BindOwn.register .empty (Handler.bindsOwn_comparing _ _)
  let q : Query := ⟨.postgres, "posts", some "post", [], [], [], [], [], none, none, none⟩
  let criteria : Criteria := ⟨0, 1, [], none,
    [⟨⟨"author.name", by decide⟩, .string "Ann"⟩, ⟨⟨"author_name", by decide⟩, .string "Bob"⟩,
      ⟨⟨"price", by decide⟩, .list [.int 1, .int 5]⟩, ⟨⟨"price_from", by decide⟩, .int 9⟩],
    .ofList [("price", "between")], true⟩
  obtain ⟨q', hq', h⟩ : ∃ q', ((start q criteria).withHandlers handlers).build = .ok q'
      ∧ (q'.predicates.map (·.parameters),
          q'.parameters.map fun (name, v) => (name, Dialect.postgres.literal v))
        = ([["author_name"], ["author_name"], ["price_from", "price_to"], ["price_from"]],
          [("author_name", "'Bob'"), ("price_from", "9"), ("price_to", "5")]) :=
    exists_eq_ok_of_map_toOption (by decide +kernel)
  obtain ⟨hpredicates, hparameters⟩ := Prod.mk.inj h
  exact ⟨_, q', own, by decide +kernel, hq', hpredicates, hparameters⟩

end Compilation

end Shortlist
