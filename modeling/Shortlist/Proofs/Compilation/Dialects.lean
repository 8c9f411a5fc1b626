import Shortlist.Proofs.Compilation.Fresh
import Shortlist.Proofs.Dialect.Fragments

/-!
# Dialects agree

No step of a compilation looks at the dialect of the query, so criteria are compiled to the same
query in every dialect, or refused with the same error.  A query on a fresh table has no offset
without a limit, and then its statement has the same fragments in every dialect.
-/

namespace Shortlist

/-! ### Queries -/

namespace Query

/-- The query in another dialect. -/
def inDialect (q : Query) (d : Dialect) : Query :=
  { q with dialect := d }

/-- A table is selected from, or refused, in every dialect alike. -/
theorem select_inDialect (d d' : Dialect) (table : String) (rootAlias? : Option String) :
  select d' table rootAlias? = (select d table rootAlias?).map (·.inDialect d')
  := by
  rw [select, select]
  split
  · rfl
  · split <;> rfl

/-- The limit is spelled in every dialect alike, unless there is an offset and no limit. -/
theorem limitText_inDialect {q : Query} (paged : q.offset? ≠ none → q.limit? ≠ none)
    (d : Dialect) :
  (q.inDialect d).limitText = q.limitText
  := by
  have hlimit : (q.inDialect d).limit? = q.limit? := rfl
  have hoffset : (q.inDialect d).offset? = q.offset? := rfl
  rw [limitText, limitText, hlimit, hoffset]
  cases h : q.limit? with
  | some n => rfl
  | none =>
    have hnone : q.offset? = none := by
      by_contra hne
      exact paged hne h
    rw [hnone]

/-- A query with a limit wherever it has an offset has the same fragments in every dialect. -/
theorem fragments_inDialect {q : Query} (paged : q.offset? ≠ none → q.limit? ≠ none)
    (d : Dialect) :
  (q.inDialect d).fragments = q.fragments
  := by
  have hpieces : (q.inDialect d).pieces = q.pieces := by
    rw [pieces, pieces, limitText_inDialect paged]
    rfl
  rw [fragments, fragments, hpieces]
  rfl

/-- In another dialect, a statement is the same fragments with the same values. -/
theorem render_inDialect {q : Query} (closed : ∀ name ∈ q.named, (q.parameter? name).isSome)
    (paged : q.offset? ≠ none → q.limit? ≠ none) (d : Dialect) :
  (q.inDialect d).render = .ok ⟨d.write q.fragments, q.numbered.parameters⟩
  := by
  have hsql : (q.inDialect d).numbered.sql = d.write q.fragments := by
    rw [sql_numbered, fragments_inDialect paged]
    rfl
  rw [(q.inDialect d).render_of_bound closed, ← hsql]
  rfl

end Query

/-! ### Compilations -/

/-- A clause adds the same to a query in every dialect. -/
theorem Clause.addTo_inDialect (c : Clause) (q : Query) (d : Dialect) :
  c.addTo (q.inDialect d) = (c.addTo q).inDialect d
  := by
  rw [addTo, addTo, Query.foldl_bind, Query.foldl_bind]
  rfl

namespace Compilation

/-- The compilation onto the query in another dialect. -/
def inDialect (c : Compilation) (d : Dialect) : Compilation :=
  { c with query := c.query.inDialect d }

variable {c : Compilation}

theorem addClause_inDialect (d : Dialect) (field : Field) (clause : Clause) :
  (c.inDialect d).addClause field clause = (c.addClause field clause).map (·.inDialect d)
  := by
  have hfault : (c.inDialect d).nameFault? = c.nameFault? := rfl
  have hquery : (c.inDialect d).query = c.query.inDialect d := rfl
  rw [addClause, addClause, hfault, hquery, clause.addTo_inDialect]
  cases clause.names.findSome? c.nameFault? with
  | some fault => rfl
  | none => rfl

/-- Without handlers, no filter sees the dialect. -/
theorem addFilter_inDialect (handlers : c.handlers = .empty) (d : Dialect) (f : Filter) :
  (c.inDialect d).addFilter f = (c.addFilter f).map (·.inDialect d)
  := by
  have hskips : (c.inDialect d).skips f = c.skips f := rfl
  have hhandlers : (c.inDialect d).handlers = c.handlers := rfl
  have hoperators : (c.inDialect d).operators = c.operators := rfl
  have hroot : (c.inDialect d).query.rootAlias? = c.query.rootAlias? := rfl
  rw [addFilter, addFilter, hskips, hhandlers, hoperators, hroot, handlers, Handlers.get?_empty]
  cases c.skips f with
  | true => rfl
  | false =>
    cases Clause.ofFilter c.operators c.query.rootAlias? f with
    | error e => rfl
    | ok clause => apply addClause_inDialect

/-- Without handlers, the phase of the filters does not see the dialect. -/
theorem each_addFilter_inDialect (handlers : c.handlers = .empty) (d : Dialect)
    (fs : List Filter) :
  Progress.each addFilter (c.inDialect d) fs
    = (Progress.each addFilter c fs).map (·.inDialect d)
  := by
  induction fs generalizing c with
  | nil => rfl
  | cons f fs ih =>
    rw [Progress.each_cons, Progress.each_cons, addFilter_inDialect handlers]
    apply Progress.map_andThen
    apply ih
    obtain ⟨q, claims, hstate⟩ := c.exists_addFilter_state_eq f
    rw [hstate]
    exact handlers

/-- The phase of the order does not see the dialect. -/
theorem addOrder_inDialect (d : Dialect) :
  (c.inDialect d).addOrder = c.addOrder.map (·.inDialect d)
  := by
  have hstep (c : Compilation) (t : OrderTerm) :
      (c.inDialect d).addOrderTerm t = (c.addOrderTerm t).map (·.inDialect d) := by
    have hroot : (c.inDialect d).query.rootAlias? = c.query.rootAlias? := rfl
    rw [addOrderTerm, addOrderTerm, hroot]
    cases t.field.qualify c.query.rootAlias? <;> rfl
  apply Progress.each_map hstep c c.criteria.order

theorem setGrouping_inDialect (d : Dialect) :
  (c.inDialect d).setGrouping = c.setGrouping.inDialect d
  := by
  have hcriteria : (c.inDialect d).criteria = c.criteria := rfl
  rw [setGrouping, setGrouping, hcriteria]
  cases c.criteria.grouping? <;> rfl

theorem setPage_inDialect (d : Dialect) :
  (c.inDialect d).setPage = c.setPage.inDialect d
  := by
  have hcriteria : (c.inDialect d).criteria = c.criteria := rfl
  rw [setPage, setPage, hcriteria]
  cases c.criteria.offset? <;> rfl

/-- Without handlers, a run does not see the dialect. -/
theorem run_inDialect (handlers : c.handlers = .empty) (d : Dialect) :
  (c.inDialect d).run = c.run.map (·.inDialect d)
  := by
  have hfilters : (c.inDialect d).addFilters = c.addFilters.map (·.inDialect d) :=
    each_addFilter_inDialect handlers d c.criteria.filters
  rw [run, run, hfilters, Progress.map_andThen (addOrder_inDialect d)]
  apply Progress.map_andThen
  rw [setGrouping_inDialect, setPage_inDialect]
  rfl

/-- Without handlers, criteria are compiled, or refused, in every dialect alike. -/
theorem build_inDialect (handlers : c.handlers = .empty) (d : Dialect) :
  (c.inDialect d).build = c.build.map (·.inDialect d)
  := by
  rw [build, build, run_inDialect handlers, Progress.map_result]
  cases c.run.result <;> rfl

end Compilation

/-! ### Fresh queries -/

namespace Criteria

/-- The query that the criteria are compiled to on a fresh query over a table. -/
def onTable (criteria : Criteria) (operators : Operators) (table : String)
    (rootAlias? : Option String) (d : Dialect) : Except Error Query := do
  let q ← Query.select d table rootAlias?
  ((Compilation.start q criteria).setOperators operators).build

/-- Criteria are compiled onto a table, or refused, in every dialect alike. -/
theorem onTable_inDialect (criteria : Criteria) (operators : Operators) (table : String)
    (rootAlias? : Option String) (d d' : Dialect) :
  criteria.onTable operators table rootAlias? d'
    = (criteria.onTable operators table rootAlias? d).map (·.inDialect d')
  := by
  rw [onTable, onTable, Query.select_inDialect d d']
  cases Query.select d table rootAlias? with
  | error e => rfl
  | ok q =>
    apply Compilation.build_inDialect (c := (Compilation.start q criteria).setOperators operators)
    rfl

/-- There is an offset only where there is a limit. -/
theorem CompiledTo.paged {criteria : Criteria} {operators : Operators} {q q' : Query}
    (h : criteria.CompiledTo operators q q') :
  q'.offset? ≠ none → q'.limit? ≠ none
  := by
  rw [h.rest]
  cases criteria.offset? <;> simp

/-- Every pattern is the literal of a string, in all dialects the same. -/
theorem CompiledTo.exists_literal_eq {criteria : Criteria} {operators : Operators} {q q' : Query}
    (h : criteria.CompiledTo operators q q') {column pattern : String} {negated : Bool}
    (hp : Predicate.like column negated pattern ∈ q'.predicates) :
  ∃ text, ∀ d : Dialect, pattern = d.literal (.string text)
  := by
  obtain ⟨f, -, op, _, -, -, hsays⟩ := exists_rel_of_mem h.predicates hp
  cases hsays with
  | like => exact ⟨_, fun d => rfl⟩
  | notLike => exact ⟨_, fun d => rfl⟩

/-- Dialects differ in spelling only.  Criteria that are compiled to a query on a fresh query over
a table are either refused with the same error in every dialect, or compiled to queries that are
the same but for their dialects.  The statements are then the same fragments, with a placeholder
or a truth value spelled as the dialect spells it and all other text left as it is, and the same
values are sent with them.  One dialect writes `$` before the number of a placeholder and `TRUE`
and `FALSE` for the truth values, the other `?`, `1` and `0`. -/
theorem dialects_agree (criteria : Criteria) (operators : Operators) (table : String)
    (rootAlias? : Option String) :
  (∃ e, ∀ d, criteria.onTable operators table rootAlias? d = .error e)
    ∨ ∃ (q : Query) (values : List Value),
      (∀ column negated pattern, Predicate.like column negated pattern ∈ q.predicates →
        ∃ text, ∀ d : Dialect, pattern = d.literal (.string text))
      ∧ (∀ d, criteria.onTable operators table rootAlias? d = .ok (q.inDialect d)
        ∧ (q.inDialect d).render = .ok ⟨d.write q.fragments, values⟩)
      ∧ (q.inDialect .postgres).render
        = .ok ⟨String.join (q.fragments.map (Fragment.spelled "TRUE" "FALSE" "$")), values⟩
      ∧ (q.inDialect .sqlite).render
        = .ok ⟨String.join (q.fragments.map (Fragment.spelled "1" "0" "?")), values⟩
  := by
  cases hq : criteria.onTable operators table rootAlias? .postgres with
  | error e =>
    left
    use e
    intro d
    rw [onTable_inDialect _ _ _ _ .postgres, hq]
    rfl
  | ok q =>
    right
    obtain ⟨q₀, hselect, hbuild⟩ := (bind_eq_ok_iff ..).mp hq
    have hcompiled := Compilation.compiledTo_of_build_eq_ok hselect hbuild
    have hrender := Query.render_inDialect hcompiled.bound hcompiled.paged
    use q, q.numbered.parameters
    refine ⟨?_, ?_, ?_, ?_⟩
    · intro column negated pattern hp
      apply hcompiled.exists_literal_eq hp
    · intro d
      constructor
      · rw [onTable_inDialect _ _ _ _ .postgres, hq]
        rfl
      · apply hrender
    · rw [← Dialect.spell_postgres]
      apply hrender
    · rw [← Dialect.spell_sqlite]
      apply hrender

/-- Open posts are looked for with `TRUE` in one dialect and with `1` in the other, and a string
is the same in both, whatever it looks like. -/
theorem dialects_agree_posts :
  ∃ (criteria : Criteria) (operators : Operators) (q : Query),
    criteria.filters.map (·.field.text) = ["open", "id"]
      ∧ (∀ d, criteria.onTable operators "posts" (some "p") d = .ok (q.inDialect d))
      ∧ (q.inDialect .postgres).render
        = .ok ⟨"SELECT p.* FROM posts p WHERE p.open IN (TRUE, FALSE, 'TRUE') AND p.id = $1"
            ++ " LIMIT 25 OFFSET 0", [.int 2]⟩
      ∧ (q.inDialect .sqlite).render
        = .ok ⟨"SELECT p.* FROM posts p WHERE p.open IN (1, 0, 'TRUE') AND p.id = ?1"
            ++ " LIMIT 25 OFFSET 0", [.int 2]⟩
  := by
  obtain ⟨criteria, operators, hfields, hbuilt⟩ : ∃ (criteria : Criteria) (operators : Operators),
      criteria.filters.map (·.field.text) = ["open", "id"]
        ∧ criteria.onTable operators "posts" (some "p") .postgres
          = .ok ⟨.postgres, "posts", some "p", ["p.*"], [],
              [.isIn "p.open" false [.bool true, .bool false, .string "TRUE"],
                .compare "p.id" .eq "id"],
              [("id", .int 2)], [], none, some 25, some 0⟩ := by
    use { standard with
      filters := [⟨⟨"open", by decide⟩, .list [.bool true, .bool false, .string "TRUE"]⟩,
        ⟨⟨"id", by decide⟩, .int 2⟩] }, .insert .empty "open" .isIn
    constructor <;> rfl
  obtain ⟨e, he⟩ | ⟨q, _, -, hagree, -⟩ := dialects_agree criteria operators "posts" (some "p")
  · cases hbuilt.symm.trans (he .postgres)
  · have hq := Except.ok.inj ((hagree .postgres).1.symm.trans hbuilt)
    have hother : q.inDialect .sqlite = (q.inDialect .postgres).inDialect .sqlite := rfl
    refine ⟨criteria, operators, q, hfields, fun d => (hagree d).1, ?_, ?_⟩
    · rw [hq]
      rfl
    · rw [hother, hq]
      rfl

end Criteria

end Shortlist
