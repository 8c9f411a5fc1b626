import Shortlist.Proofs.Compilation.Build
import Shortlist.Proofs.Criteria.Reordered

/-!
# Reordered options

The order of members decides neither whether raw options can be put onto a query nor what the
query means afterwards.  Whether a parameter is needed twice, or needed and not free, does not
depend on the order of the filters, although the filter that is refused for it does.
-/

namespace Shortlist

/-- Two queries that were made of one by adding the same in another order: nothing but the
order of the added predicates and parameters differs. -/
structure Query.AddedAlike (q q₁ q₂ : Query) : Prop where
  rest : q₂ = { q₁ with predicates := q₂.predicates, parameters := q₂.parameters }
  parameter?_eq : ∀ name, q₁.parameter? name = q₂.parameter? name
  predicates : ∃ added added', q₁.predicates = q.predicates ++ added
    ∧ q₂.predicates = q.predicates ++ added' ∧ added.Perm added'

/-- Reordered clauses that bind distinct parameters complete a query alike. -/
theorem Query.addedAlike_completed
    (q : Query) (criteria : Criteria) (fs : List Filter) {clauses clauses' : List Clause}
    (terms : List (String × Direction))
    (distinct : (Keyed.keys (clauses.flatMap (·.bindings))).Nodup)
    (hperm : clauses.Perm clauses') :
  q.AddedAlike (q.completed criteria clauses terms)
    (q.completed { criteria with filters := fs } clauses' terms)
  := by
  constructor
  · rfl
  · intro name
    change Keyed.get? name (q.parameters ++ clauses.flatMap (·.bindings))
      = Keyed.get? name (q.parameters ++ clauses'.flatMap (·.bindings))
    rw [Keyed.get?_append, Keyed.get?_append,
      Keyed.get?_of_perm distinct (hperm.flatMap_right _)]
  · exact ⟨_, _, rfl, rfl, hperm.map _⟩

/-- A build of criteria with reordered filters succeeds as well, and adds the same. -/
theorem Compilation.build_reordered {q q₁ : Query} {criteria criteria' : Criteria}
    (h : criteria.Reordered criteria') (hq : (start q criteria).build = .ok q₁) :
  ∃ q₂, (start q criteria').build = .ok q₂ ∧ q.AddedAlike q₁ q₂
  := by
  obtain ⟨clauses, terms, hclauses, hnodup, hfree, hterms, rfl⟩ := (build_eq_ok_iff rfl q₁).mp hq
  obtain ⟨fs, rfl, hfs⟩ : ∃ fs, criteria' = { criteria with filters := fs } ∧
      criteria.filters.Perm fs := ⟨_, h.rest, h.filters⟩
  let criteria' : Criteria := { criteria with filters := fs }
  have hkept : criteria.kept.Perm criteria'.kept := hfs.filter _
  obtain ⟨clauses', hclauses', hperm⟩ := List.perm_comp_forall₂ hkept.symm hclauses
  -- that no name is needed twice and all are free says nothing about the order of the names
  have hneeded := hkept.flatMap_right fun f => f.parameters criteria.operators
  use q.completed criteria' clauses' terms
  constructor
  · apply (build_eq_ok_iff rfl _).mpr
    use clauses', terms, hclauses', hneeded.nodup hnodup
    constructor
    · intro name hname
      apply hfree name (hneeded.mem_iff.mpr hname)
    · use hterms
      rfl
  · apply q.addedAlike_completed criteria fs terms _ hperm.symm
    rw [Clause.keys_bindings, hclauses.names_eq]
    exact hnodup

namespace Query

theorem applyOptions_result_eq_ok_iff (q : Query) (r : Json) (q' : Query) :
  (q.applyOptions r).result = .ok q'
    ↔ ∃ criteria, Criteria.ofOptions r = .ok criteria
        ∧ (Compilation.start q criteria).build = .ok q'
  := by
  rw [applyOptions]
  cases Criteria.ofOptions r with
  | error e => simp [Progress.stop, Progress.result]
  | ok criteria =>
    simp only [Except.ok.injEq, exists_eq_left', applyCriteria, Compilation.build,
      Progress.map_result]

theorem applyOptions_reordered {r r' : Json} (h : r.Reordered r') {q q₁ : Query}
    (hq : (q.applyOptions r).result = .ok q₁) :
  ∃ q₂, (q.applyOptions r').result = .ok q₂ ∧ q.AddedAlike q₁ q₂
  := by
  obtain ⟨criteria, hcriteria, hbuild⟩ := (applyOptions_result_eq_ok_iff ..).mp hq
  obtain ⟨criteria', hcriteria', hreordered⟩ := Criteria.ofOptions_reordered h hcriteria
  obtain ⟨q₂, hbuild', halike⟩ := Compilation.build_reordered hreordered hbuild
  use q₂
  constructor
  · exact (applyOptions_result_eq_ok_iff ..).mpr ⟨criteria', hcriteria', hbuild'⟩
  · exact halike

/-- Options that differ only in the order of members, at any depth, can both be put onto a
query or neither can.  The queries that come out have the same order, grouping, page, joins and
selected columns, the same values of all parameters and, after the predicates there were, the
same predicates in some order. -/
theorem applyOptions_of_reordered {r r' : Json} (h : r.Reordered r') (q : Query) :
  ((∃ q₁, (q.applyOptions r).result = .ok q₁) ↔ ∃ q₂, (q.applyOptions r').result = .ok q₂)
    ∧ ∀ q₁ q₂, (q.applyOptions r).result = .ok q₁ → (q.applyOptions r').result = .ok q₂ →
      (q₁.order = q₂.order ∧ q₁.grouping? = q₂.grouping? ∧ q₁.limit? = q₂.limit?
          ∧ q₁.offset? = q₂.offset? ∧ q₁.joins = q₂.joins ∧ q₁.selects = q₂.selects)
        ∧ (∀ name, q₁.parameter? name = q₂.parameter? name)
        ∧ ∃ added added', q₁.predicates = q.predicates ++ added
            ∧ q₂.predicates = q.predicates ++ added' ∧ added.Perm added'
  := by
  constructor
  · constructor
    · rintro ⟨q₁, hq₁⟩
      exact (applyOptions_reordered h hq₁).imp fun _ h => h.1
    · rintro ⟨q₂, hq₂⟩
      exact (applyOptions_reordered h.symm hq₂).imp fun _ h => h.1
  · intro q₁ q₂ hq₁ hq₂
    obtain ⟨q₂', hq₂', halike⟩ := applyOptions_reordered h hq₁
    obtain rfl : q₂' = q₂ := Except.ok.inj (hq₂'.symm.trans hq₂)
    refine ⟨?_, halike.parameter?_eq, halike.predicates⟩
    rw [halike.rest]
    exact ⟨rfl, rfl, rfl, rfl, rfl, rfl⟩

/-- Options for posts, with members in another order at the top, in the filters, in an entity
and in an order term. -/
theorem applyOptions_of_reordered_posts :
  ∃ (r r' : Json) (q q₁ q₂ : Query), r.Reordered r'
    ∧ (q.applyOptions r).result = .ok q₁ ∧ (q.applyOptions r').result = .ok q₂
    ∧ Keyed.keys q₁.parameters = ["id", "author", "price_from", "price_to"]
    ∧ Keyed.keys q₂.parameters = ["id", "price_from", "price_to", "author"]
    ∧ q₁.order = q₂.order ∧ q₁.parameter? "price_to" = q₂.parameter? "price_to"
    ∧ ∃ added added', q₁.predicates = q.predicates ++ added
        ∧ q₂.predicates = q.predicates ++ added' ∧ added.Perm added'
  := by
  let ann : List (String × Json) := [("id", .number (.whole 3)), ("name", .string "Ann")]
  let ann' : List (String × Json) := [("name", .string "Ann"), ("id", .number (.whole 3))]
  let bounds : Json := .array [.number (.whole 1), .number (.whole 5)]
  let term : List (String × Json) := [("by", .string "price"), ("dir", .string "desc")]
  let term' : List (String × Json) := [("dir", .string "desc"), ("by", .string "price")]
  let operators : Json := .object [("price", .string "between")]
  let filters : List (String × Json) := [("author", .object ann), ("price", bounds)]
  let filters' : List (String × Json) := [("price", bounds), ("author", .object ann')]
  let r : Json := .object
    [("filters", .object filters), ("operators", operators), ("order", .array [.object term])]
  let r' : Json := .object
    [("operators", operators), ("order", .array [.object term']), ("filters", .object filters')]
  have hann : Json.Reordered (.object ann) (.object ann') :=
    .object (by decide) (.cons _ (.number _) (.cons _ (.string _) .nil)) (.swap ..)
  have hbounds : bounds.Reordered bounds :=
    .array (.cons (.number _) (.cons (.number _) .nil))
  have hterm : Json.Reordered (.object term) (.object term') :=
    .object (by decide) (.cons _ (.string _) (.cons _ (.string _) .nil)) (.swap ..)
  have hoperators : operators.Reordered operators :=
    .object (by decide) (.cons _ (.string _) .nil) .rfl
  have hfilters : Json.Reordered (.object filters) (.object filters') :=
    .object (by decide) (.cons _ hann (.cons _ hbounds .nil)) (.swap ..)
  have h : r.Reordered r' :=
    .object (by decide)
      (.cons _ hfilters (.cons _ hoperators (.cons _ (.array (.cons hterm .nil)) .nil)))
      ((List.Perm.swap ..).trans ((List.Perm.swap ..).cons _))
  let q : Query := ⟨.postgres, "posts", some "post", [], [], [.compare "post.id" .gte "id"],
    [("id", .int 1)], [], none, none, none⟩
  have of_keys (x : Except Error Query) (names : List String)
      (hx : x.toOption.map (Keyed.keys ·.parameters) = some names) :
      ∃ q, x = .ok q ∧ Keyed.keys q.parameters = names := by
    cases x with
    | error e => cases hx
    | ok q => exact ⟨q, rfl, Option.some.inj hx⟩
  obtain ⟨q₁, hq₁, hkeys₁⟩ := of_keys (q.applyOptions r).result
    ["id", "author", "price_from", "price_to"] (by decide +kernel)
  obtain ⟨q₂, hq₂, hkeys₂⟩ := of_keys (q.applyOptions r').result
    ["id", "price_from", "price_to", "author"] (by decide +kernel)
  obtain ⟨⟨horder, -⟩, hparameter, hpredicates⟩ := (applyOptions_of_reordered h q).2 q₁ q₂ hq₁ hq₂
  exact ⟨r, r', q, q₁, q₂, h, hq₁, hq₂, hkeys₁, hkeys₂, horder, hparameter _, hpredicates⟩

end Query

end Shortlist
