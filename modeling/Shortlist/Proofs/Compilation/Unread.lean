import Shortlist.Model.Basic
import Shortlist.Proofs.Compilation.Refiltered
import Shortlist.Proofs.Keyed.Order

/-!
# What does not matter

A compilation does not read the tag of a filter that is left out or has a handler, nor a handler
whose key is that of no filter.  So what is not read may be anything: criteria without their null
filters, tables with other tags and fewer handlers make the same query, or stop for the same
reason and leave the same query behind.
-/

namespace Shortlist

/-- The handlers under some of the keys. -/
def Handlers.restrict {σ : Type} (h : Handlers σ) (keeps : String → Bool) : Handlers σ :=
  ⟨h.slots.filter fun slot => keeps slot.1⟩

/-- A handler that is kept is found as before. -/
theorem Handlers.get?_restrict {σ : Type} (h : Handlers σ) {keeps : String → Bool} {name : String}
    (hname : keeps (keyOf name) = true) :
  (h.restrict keeps).get? name = h.get? name
  := Keyed.get?_filter_of_keeps hname h.slots

namespace Operators

/-- A tag does not change the operators of other fields. -/
theorem operatorOf_insertTag_of_ne (t : Operators) {field other : String} (tag : String)
    (h : field ≠ other) :
  (t.insertTag field tag).operatorOf other = t.operatorOf other
  := by rw [operatorOf, operatorOf, get?_insertTag, if_neg h]

/-- A field that is not in the table has the operator it has with an entry `eq`. -/
theorem operatorOf_insert_eq {t : Operators} {field : String} (h : t.get? field = none)
    (other : String) :
  (t.insert field .eq).operatorOf other = t.operatorOf other
  := by
  by_cases hother : field = other
  · subst hother
    have htag : Operator.ofTag? Operator.eq.tag = some .eq := by decide
    simp only [operatorOf, insert, get?_insertTag, if_pos, h, htag]
  · apply operatorOf_insertTag_of_ne t _ hother

end Operators

namespace Compilation

/-- Two compilations make the same query or stop for the same reason, and leave the same query
behind. -/
structure EndsAlike (c d : Compilation) : Prop where
  build : d.build = c.build
  query : d.run.state.query = c.run.state.query

/-- Compilations whose runs leave the same query behind end alike. -/
theorem EndsAlike.of_run {c d : Compilation}
    (h : d.run.map (·.query) = c.run.map (·.query)) :
  c.EndsAlike d
  := by
  constructor
  · rw [Compilation.build, Compilation.build, ← Progress.map_result, h, Progress.map_result]
  · apply congrArg Progress.state h

/-- Compilations onto the same query end alike where the same filters are not left out, and the
same is read for each of them and for the listing. -/
theorem endsAlike_of_readsAlike {c d : Compilation} (onto : d.resume c = d)
    (lists : d.ListsAlike c) (kept : d.criteria.kept = c.criteria.kept)
    (reads : ∀ f ∈ c.criteria.kept, d.ReadsAlike c f) :
  c.EndsAlike d
  := by
  have hfilters : (d.resume c).addFilters = c.addFilters.map d.resume := by
    rw [addFilters_eq_each_kept, addFilters_eq_each_kept, onto, kept, ← onto]
    apply each_addFilter_resume reads
  have hrun := congrArg (Progress.map (·.query)) (run_resume lists hfilters)
  rw [onto] at hrun
  apply EndsAlike.of_run hrun

/-! ### Filters that are left out -/

/-- Where null filters are left out, criteria without them end alike. -/
theorem endsAlike_onFilters_notNull {c : Compilation} (skipNull : c.criteria.skipNull = true) :
  c.EndsAlike (c.onFilters (c.criteria.filters.filter (!·.operand.isNull)))
  := by
  apply endsAlike_of_readsAlike
  · rfl
  · exact ⟨rfl, rfl, rfl, rfl⟩
  · simp [Criteria.kept, onFilters, skipNull]
  · intro f _
    exact ⟨rfl, fun _ => rfl, fun _ _ => rfl⟩

/-! ### Tags that are not read -/

/-- Tables that give the same operator to every filter that is read end alike. -/
theorem endsAlike_setOperators {c : Compilation} {operators : Operators}
    (h : ∀ f ∈ c.criteria.kept, c.handlers.get? f.field.text = none →
      operators.operatorOf f.field.text = c.operators.operatorOf f.field.text) :
  c.EndsAlike (c.setOperators operators)
  := by
  apply endsAlike_of_readsAlike
  · rfl
  · exact ⟨rfl, rfl, rfl, rfl⟩
  · rfl
  · intro f hf
    exact ⟨rfl, fun _ => rfl, fun _ => h f hf⟩

/-- The tag of a field whose filters all have a handler may be any tag. -/
theorem endsAlike_setOperators_insertTag {c : Compilation} {field : String} (tag : String)
    (h : ∀ f ∈ c.criteria.kept, f.field.text = field → c.handlers.contains field = true) :
  c.EndsAlike (c.setOperators (c.operators.insertTag field tag))
  := by
  apply endsAlike_setOperators
  intro f hf generic
  apply Operators.operatorOf_insertTag_of_ne
  rintro rfl
  have hhandled := h f hf rfl
  rw [Handlers.contains, generic] at hhandled
  cases hhandled

/-- A field without a tag may be given the operator it has anyway. -/
theorem endsAlike_setOperators_insert_eq {c : Compilation} {field : String}
    (h : c.operators.get? field = none) :
  c.EndsAlike (c.setOperators (c.operators.insert field .eq))
  := by
  apply endsAlike_setOperators
  intro f _ _
  apply Operators.operatorOf_insert_eq h

/-! ### Handlers that are not called -/

/-- Handlers that are the same for every filter that is kept end alike. -/
theorem endsAlike_withHandlers {c : Compilation} {handlers : Handlers Query}
    (h : ∀ f ∈ c.criteria.kept, handlers.get? f.field.text = c.handlers.get? f.field.text) :
  c.EndsAlike (c.withHandlers handlers)
  := by
  apply endsAlike_of_readsAlike
  · rfl
  · exact ⟨rfl, rfl, rfl, rfl⟩
  · rfl
  · intro f hf
    exact ⟨rfl, fun _ => h f hf, fun _ _ => rfl⟩

end Compilation

open Compilation

/-- A model puts options onto a query as if it had no handlers when it has none for their
filters. -/
theorem Model.filterQuery_eq_of_unhandled {m : Model} {options : Json}
    (h : ∀ criteria, Criteria.ofOptions options = .ok criteria →
      ∀ f ∈ criteria.kept, m.handlers.contains f.field.text = false) (q : Query) :
  m.filterQuery options q = (q.applyOptions options).result
  := by
  rw [filterQuery, Query.applyOptions]
  cases hcriteria : Criteria.ofOptions options with
  | error e => rfl
  | ok criteria =>
    have halike : (start q criteria).EndsAlike ((start q criteria).withHandlers m.handlers) := by
      apply endsAlike_withHandlers
      intro f hf
      have hnone : m.handlers.get? f.field.text = none := by
        simpa [Handlers.contains] using h criteria hcriteria f hf
      rw [hnone]
      rfl
    simp only [Query.applyCriteria, Progress.map_result]
    apply halike.build

/-- What is not read does not matter.  A compilation ends alike without its null filters, if
null filters are left out; with any operators that are the same, or refused alike, for the fields
of the other filters that have no handler, so with any tags for fields that are left out or
handled, and with an entry `eq` for a field that has none; and without any handlers under keys
that are those of no filter that is not left out.  Where a model has no handler for such a filter
of some options, it puts them onto a query as if it had no handlers at all. -/
theorem endsAlike_of_unread :
  (∀ c : Compilation,
      (c.criteria.skipNull = true →
        c.EndsAlike (c.onFilters (c.criteria.filters.filter (!·.operand.isNull))))
      ∧ (∀ operators : Operators,
        (∀ f ∈ c.criteria.kept, c.handlers.get? f.field.text = none →
          operators.operatorOf f.field.text = c.operators.operatorOf f.field.text) →
        c.EndsAlike (c.setOperators operators))
      ∧ (∀ field tag : String,
        (∀ f ∈ c.criteria.kept, f.field.text = field → c.handlers.contains field = true) →
        c.EndsAlike (c.setOperators (c.operators.insertTag field tag)))
      ∧ (∀ field : String, c.operators.get? field = none →
        c.EndsAlike (c.setOperators (c.operators.insert field .eq)))
      ∧ ∀ keeps : String → Bool,
        (∀ f ∈ c.criteria.kept, keeps (Handlers.keyOf f.field.text) = true) →
        c.EndsAlike (c.withHandlers (c.handlers.restrict keeps)))
    ∧ ∀ (m : Model) (options : Json),
      (∀ criteria, Criteria.ofOptions options = .ok criteria →
        ∀ f ∈ criteria.kept, m.handlers.contains f.field.text = false) →
      (∀ q, m.filterQuery options q = (q.applyOptions options).result)
      ∧ m.filtered options = match m.defaultQuery with
          | .error e => .error e
          | .ok q => (q.applyOptions options).result
  := by
  constructor
  · intro c
    use endsAlike_onFilters_notNull, fun _ => endsAlike_setOperators,
      fun _ => endsAlike_setOperators_insertTag, fun _ => endsAlike_setOperators_insert_eq
    intro keeps hkeeps
    apply endsAlike_withHandlers
    intro f hf
    apply Handlers.get?_restrict _ (hkeeps f hf)
  · intro m options h
    use Model.filterQuery_eq_of_unhandled h
    rw [Model.filtered]
    cases m.defaultQuery with
    | error e => rfl
    | ok q => apply Model.filterQuery_eq_of_unhandled h

/-- Posts that were deleted and such with a title, both under tags that are no operator's: the
filter of the first is left out and the second has a handler.  There is a handler for zones too,
which are not filtered by. -/
theorem endsAlike_of_unread_posts :
  ∃ (c : Compilation) (m : Model) (options : Json) (q : Query),
    c.criteria.filters.map (·.field.text) = ["deleted", "title", "id"]
      ∧ c.operators = .ofList [("deleted", "gone"), ("title", "gone")]
      ∧ c.handlers.keys = ["Title", "Zone"]
      ∧ (∃ r, c.build = .ok r ∧ Keyed.keys r.parameters = ["title", "id"])
      ∧ (∃ fs, fs.map (·.field.text) = ["title", "id"] ∧ c.EndsAlike (c.onFilters fs))
      ∧ c.EndsAlike (c.setOperators .empty)
      ∧ c.EndsAlike (c.setOperators (c.operators.insertTag "title" "like?"))
      ∧ c.EndsAlike (c.setOperators (c.operators.insert "id" .eq))
      ∧ (∃ handlers : Handlers Query, handlers.keys = ["Title"]
        ∧ c.EndsAlike (c.withHandlers handlers))
      ∧ m.handlers.keys = ["Zone"]
      ∧ m.defaultQuery = .ok q
      ∧ m.filtered options = (q.applyOptions options).result
  := by
  let q : Query :=
    ⟨.sqlite, "posts", some "post", ["post.*"], [], [], [], [], none, none, none⟩
  let criteria : Criteria := ⟨10, 1, [], none,
    [⟨⟨"deleted", by decide⟩, .null⟩, ⟨⟨"title", by decide⟩, .string "a"⟩,
      ⟨⟨"id", by decide⟩, .int 1⟩], .ofList [("deleted", "gone"), ("title", "gone")], true⟩
  let handler : Handler Query := fun q f v =>
    .done ((q.bind f.parameter v.toValue).addPredicate (.compare f.text .gte f.parameter))
  let handlers : Handlers Query := (Handlers.empty.register "title" handler).register "zone" handler
  let c := (start q criteria).withHandlers handlers
  let m : Model := ⟨.sqlite, "Post", "posts", Handlers.empty.register "zone" handler⟩
  let options : Json := .object [("filters", .object [("id", .string "1")])]
  obtain ⟨hc, hm⟩ := endsAlike_of_unread
  obtain ⟨hnull, hoperators, htag, habsent, hhandlers⟩ := hc c
  have hunhandled : ∀ criteria, Criteria.ofOptions options = .ok criteria →
      ∀ f ∈ criteria.kept, m.handlers.contains f.field.text = false := by
    intro criteria h
    have hall : (Criteria.ofOptions options).toOption.all (fun criteria =>
        criteria.kept.all fun f => !m.handlers.contains f.field.text) = true := by
      decide +kernel
    rw [h] at hall
    simpa [Except.toOption] using hall
  have hm := (hm m options hunhandled).2
  have hselect : Query.select .sqlite "posts" (some "post") = .ok q := rfl
  have halias : m.rootAlias = "post" := by decide +kernel
  have hdefault : m.defaultQuery = .ok q := by
    rw [Model.defaultQuery, halias]
    exact hselect
  rw [hdefault] at hm
  exact ⟨c, m, options, q, rfl, rfl, by decide +kernel,
    exists_eq_ok_of_map_toOption (by decide +kernel), ⟨_, rfl, hnull rfl⟩,
    hoperators .empty (by decide +kernel), htag "title" "like?" (by decide +kernel),
    habsent "id" (by decide +kernel),
    ⟨_, by decide +kernel, hhandlers (· != "Zone") (by decide +kernel)⟩, by decide +kernel,
    hdefault, hm⟩

end Shortlist
