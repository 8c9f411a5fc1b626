import Shortlist.Proofs.Compilation.Refiltered
import Shortlist.Proofs.Criteria.Unwrapped

/-!
# Compilation of ids in place of entities

Where ids are given in place of entities, to operators that take no pattern, criteria are
compiled alike: a filter is left out, refused or added for the same reason, and what is added is
the same.
-/

namespace Shortlist

theorem Operators.hasNoPattern_of_operatorOf {t : Operators} {field : String} (op : Operator)
    (h : t.operatorOf field = .ok op) (like : op ≠ .like) (notLike : op ≠ .notLike) :
  t.HasNoPattern field
  := by
  intro op' h'
  obtain rfl : op = op' := Except.ok.inj (h.symm.trans h')
  exact ⟨like, notLike⟩

namespace Compilation

/-- A filter with ids in place of entities is added as the filter is. -/
theorem addedAlike_of_unwraps {c : Compilation} (handlers : c.handlers = .empty) {f f' : Filter}
    (h : f.Unwraps c.operators.HasNoPattern f') :
  c.AddedAlike f f'
  := by
  intro d hoperators hhandlers
  have hskips : d.skips f' = d.skips f := by rw [skips, skips, h.unwraps_operand.isNull_eq]
  have hclause : Clause.ofFilter d.operators d.query.rootAlias? f'
      = Clause.ofFilter d.operators d.query.rootAlias? f := by
    rw [hoperators]
    apply h.ofFilter_eq
  rw [addFilter, addFilter, hskips, hhandlers, handlers, Handlers.get?_empty,
    Handlers.get?_empty, hclause, h.field]

/-- Of criteria with ids in place of entities the same query is made, or left behind. -/
theorem run_query_of_unwraps (q : Query) (operators : Operators) {criteria criteria' : Criteria}
    (h : criteria.Unwraps operators.HasNoPattern criteria') :
  ((start q criteria').setOperators operators).run.map (·.query)
    = ((start q criteria).setOperators operators).run.map (·.query)
  := by
  have halike : List.Forall₂ ((start q criteria).setOperators operators).AddedAlike
      criteria.filters criteria'.filters := by
    apply h.filters.imp
    intro f f' hf
    apply addedAlike_of_unwraps rfl hf
  rw [h.rest]
  apply run_query_onFilters halike

theorem applyCriteria_of_unwraps (q : Query) {criteria criteria' : Criteria}
    (h : criteria.Unwraps criteria.operators.HasNoPattern criteria') :
  q.applyCriteria criteria' = q.applyCriteria criteria
  := by
  have hstart : start q criteria' = (start q criteria').setOperators criteria.operators := by
    rw [h.rest]
    rfl
  rw [Query.applyCriteria, Query.applyCriteria, hstart]
  apply run_query_of_unwraps q criteria.operators h

/-- Entities and their ids are interchangeable.  Criteria compile to the same query, or are
refused for the same reason, when in filters whose operator takes no pattern some entities are
replaced by their ids; and so do raw options in which such objects are written as their ids. -/
theorem build_of_unwraps (q : Query) :
  (∀ (operators : Operators) (criteria criteria' : Criteria),
      criteria.Unwraps operators.HasNoPattern criteria' →
      ((start q criteria').setOperators operators).build
        = ((start q criteria).setOperators operators).build)
    ∧ ∀ members members' : List (String × Json),
      List.Forall₂ (Criteria.OptionUnwraps (Criteria.TakesNoPattern members)) members members' →
      q.applyOptions (.object members') = q.applyOptions (.object members)
  := by
  constructor
  · intro operators criteria criteria' h
    rw [build, build, ← Progress.map_result, ← Progress.map_result,
      run_query_of_unwraps q operators h]
  · intro members members' h
    have halike := Criteria.ofMembers_alike h
    rw [Query.applyOptions, Query.applyOptions, Criteria.ofOptions, Criteria.ofOptions]
    generalize Criteria.ofMembers members = x at halike
    generalize Criteria.ofMembers members' = x' at halike
    cases halike with
    | error e => rfl
    | ok h => apply applyCriteria_of_unwraps q h

/-- Posts by one of two authors, in a range of prices, with an owner: the ids stand in place of
the entities, in the criteria and in the raw options. -/
theorem build_of_unwraps_posts :
  ∃ (q q' : Query) (criteria criteria' : Criteria) (members members' : List (String × Json)),
    criteria.Unwraps criteria.operators.HasNoPattern criteria'
      ∧ (start q criteria).build = .ok q' ∧ (start q criteria').build = .ok q'
      ∧ List.Forall₂ (Criteria.OptionUnwraps (Criteria.TakesNoPattern members)) members members'
      ∧ q.applyOptions (.object members') = q.applyOptions (.object members)
      ∧ q'.predicates.length = 3
  := by
  let author : Field := ⟨"author", by decide⟩
  let price : Field := ⟨"price", by decide⟩
  let owner : Field := ⟨"owner", by decide⟩
  let operators : Operators := .ofList [("author", "in"), ("price", "between")]
  let criteria : Criteria :=
    { Criteria.standard with
      operators := operators
      filters :=
        [⟨author, .list [.entity (.int 3), .int 4]⟩, ⟨price, .list [.int 1, .entity (.int 5)]⟩,
          ⟨owner, .entity (.string "ann")⟩] }
  let criteria' : Criteria :=
    { criteria with
      filters :=
        [⟨author, .list [.int 3, .int 4]⟩, ⟨price, .list [.int 1, .int 5]⟩,
          ⟨owner, .string "ann"⟩] }
  have hauthor : operators.HasNoPattern "author" :=
    Operators.hasNoPattern_of_operatorOf .isIn rfl (by decide) (by decide)
  have hprice : operators.HasNoPattern "price" :=
    Operators.hasNoPattern_of_operatorOf .between rfl (by decide) (by decide)
  have howner : operators.HasNoPattern "owner" :=
    Operators.hasNoPattern_of_operatorOf .eq rfl (by decide) (by decide)
  have h : criteria.Unwraps operators.HasNoPattern criteria' := by
    refine ⟨.cons ⟨rfl, .inr ⟨hauthor, .list ?_⟩⟩ (.cons ⟨rfl, .inr ⟨hprice, .list ?_⟩⟩
      (.cons ⟨rfl, .inr ⟨howner, .id rfl⟩⟩ .nil)), rfl⟩
    · exact .cons (.id rfl) (.cons (.keep _) .nil)
    · exact .cons (.keep _) (.cons (.id rfl) .nil)
  let json (n : Int) : Json := .number (.whole n)
  let members : List (String × Json) :=
    [("filters", .object
        [("author", .array [.object [("id", json 3), ("name", .string "Ann")], json 4]),
          ("price", .array [json 1, .object [("id", json 5)]]),
          ("owner", .object [("id", .string "ann")])]),
      ("operators", .object [("author", .string "in"), ("price", .string "between")])]
  let members' : List (String × Json) :=
    [("filters", .object
        [("author", .array [json 3, json 4]), ("price", .array [json 1, json 5]),
          ("owner", .string "ann")]),
      ("operators", .object [("author", .string "in"), ("price", .string "between")])]
  have hread : Criteria.orStandard Criteria.standard.operators Criteria.readOperators
      (Criteria.option? members "operators") = .ok operators := by decide
  have takes (field : String) (hfield : operators.HasNoPattern field) :
      Criteria.TakesNoPattern members field := by
    intro t ht
    obtain rfl : operators = t := Except.ok.inj (hread.symm.trans ht)
    exact hfield
  have hmembers : List.Forall₂ (Criteria.OptionUnwraps (Criteria.TakesNoPattern members))
      members members' := by
    refine .cons (.filters (.cons ⟨rfl, .inr ⟨takes _ hauthor, .array ?_⟩⟩
      (.cons ⟨rfl, .inr ⟨takes _ hprice, .array ?_⟩⟩
        (.cons ⟨rfl, .inr ⟨takes _ howner, .string rfl⟩⟩ .nil)))) (.cons (.keep _) .nil)
    · exact .cons (.number rfl) (.cons (.keep _) .nil)
    · exact .cons (.keep _) (.cons (.number rfl) .nil)
  let q : Query := ⟨.postgres, "posts", some "post", [], [], [], [], [], none, none, none⟩
  obtain ⟨q', hq', hlength⟩ : ∃ q', (start q criteria).build = .ok q' ∧ q'.predicates.length = 3 :=
    exists_eq_ok_of_map_toOption (by decide +kernel)
  obtain ⟨hbuild, happly⟩ := build_of_unwraps q
  exact ⟨q, q', criteria, criteria', members, members', h, hq',
    (hbuild operators criteria criteria' h).trans hq', hmembers, happly members members' hmembers,
    hlength⟩

end Compilation

end Shortlist
