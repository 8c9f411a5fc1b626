import Shortlist.Proofs.Compilation.Meaning
import Shortlist.Proofs.Query.Spelling

/-!
# Statements of compiled criteria

Patterns and lists are written into the statement of a query, and they hold whatever a filter
was given.  Nevertheless a scanner finds in the statement that criteria are compiled to exactly
the strings the filters were given, and nothing but names, numbers and keywords around them.
-/

namespace Shortlist

open Text

/-- The strings a filter writes into a statement under an operator. -/
def Filter.inlinedFor (f : Filter) (op : Operator) : List String :=
  match op.kind with
  | .pattern => (f.operand.patternText?.map fun text => "%" ++ text ++ "%").toList
  | .membership => f.operand.toValue.strings
  | .comparison | .nullCheck | .range => []

/-- The strings a filter writes into a statement, none when it has no operator. -/
def Filter.inlined (operators : Operators) (f : Filter) : List String :=
  match operators.operatorOf f.field.text with
  | .ok op => f.inlinedFor op
  | .error _ => []

theorem Operand.toValues_eq_map (vs : List Operand) :
  toValues vs = vs.map toValue
  := by
  induction vs with
  | nil => rfl
  | cons v vs ih => rw [toValues, ih, List.map_cons]

/-- The members of an operand hold the strings of its value. -/
theorem Operand.Members.strings_eq {v : Operand} {values : List Value} (h : v.Members values) :
  v.toValue.strings = values.flatMap Value.strings
  := by
  cases h with
  | list => rw [toValue, Value.strings, Value.stringsOfItems_eq_flatten, toValues_eq_map,
      List.flatMap_def]
  | lone => rw [List.flatMap_singleton]

namespace Filter.SaidBy

variable {operators : Operators} {rootAlias? : Option String}
  {value? : String → Option Value} {f : Filter} {p : Predicate}

/-- A predicate that says what a filter says is guarded with the strings the filter writes. -/
theorem guarded (h : f.SaidBy operators rootAlias? value? p)
    (halias : ∀ name, rootAlias? = some name → isPlain name = true)
    (d : Dialect) (number : String → Nat) :
  Guarded (spelled d number p.pieces) (f.inlined operators)
  := by
  obtain ⟨op, column, hop, hcolumn, hsays⟩ := h
  have hplain := Field.isPlain_of_qualify halias hcolumn
  rw [inlined, hop]
  cases hsays with
  | comparison kind =>
    simp only [inlinedFor, kind]
    apply Predicate.guarded_compare _ _ hplain
  | isNull => apply Predicate.guarded_null _ _ hplain
  | isNotNull => apply Predicate.guarded_null _ _ hplain
  | like spells =>
    simp only [inlinedFor, Operator.kind, (Operand.patternText?_eq_some_iff ..).mpr spells]
    apply Predicate.guarded_like _ _ hplain
  | notLike spells =>
    simp only [inlinedFor, Operator.kind, (Operand.patternText?_eq_some_iff ..).mpr spells]
    apply Predicate.guarded_like _ _ hplain
  | isIn members =>
    simp only [inlinedFor, Operator.kind, members.strings_eq]
    apply Predicate.guarded_isIn _ _ hplain
  | notIn members =>
    simp only [inlinedFor, Operator.kind, members.strings_eq]
    apply Predicate.guarded_isIn _ _ hplain
  | between => apply Predicate.guarded_between _ _ hplain

/-- A predicate that says what a filter says names only parameters that have a value. -/
theorem isSome_of_mem_parameters (h : f.SaidBy operators rootAlias? value? p) :
  ∀ name ∈ p.parameters, (value? name).isSome
  := by
  obtain ⟨op, column, -, -, hsays⟩ := h
  cases hsays with
  | comparison _ value => simp [Predicate.parameters, value]
  | between _ lowValue highValue => simp [Predicate.parameters, lowValue, highValue]
  | _ => simp [Predicate.parameters]

end Filter.SaidBy

theorem exists_rel_of_mem
    {α β : Type} {R : α → β → Prop} {as : List α} {bs : List β} (h : List.Forall₂ R as bs)
    {b : β} (hb : b ∈ bs) :
  ∃ a ∈ as, R a b
  := by
  induction h with
  | nil => cases hb
  | @cons a _ as _ hab _ ih =>
    obtain rfl | hb := List.mem_cons.mp hb
    · use a, List.mem_cons_self ..
    · obtain ⟨a', ha', hab'⟩ := ih hb
      use a', List.mem_cons_of_mem a ha'

namespace Query

variable {q : Query} {dialect : Dialect} {table : String} {rootAlias? : Option String}

/-- A fresh query that is completed holds what the criteria add and nothing else. -/
theorem completed_of_select
    (hselect : select dialect table rootAlias? = .ok q) (criteria : Criteria)
    (clauses : List Clause) (terms : List (String × Direction)) :
  (q.completed criteria clauses terms).predicates = clauses.map (·.predicate)
    ∧ (q.completed criteria clauses terms).order = terms
    ∧ (q.completed criteria clauses terms).grouping? = criteria.grouping?.map (·.text)
    ∧ (q.completed criteria clauses terms).joins = []
  := by
  obtain ⟨-, -, hq⟩ := select_eq_ok hselect
  rw [hq]
  exact ⟨rfl, rfl, Option.or_none, rfl⟩

/-- A fresh query that is completed is guarded with the strings of the filters. -/
theorem isGuarded_completed
    (hselect : select dialect table rootAlias? = .ok q) {criteria : Criteria}
    {operators : Operators} {clauses : List Clause} {terms : List (String × Direction)}
    (hterms : OrderTerm.Of q.rootAlias? criteria.order terms)
    {value? : String → Option Value}
    (hsaid : List.Forall₂ (Filter.SaidBy operators q.rootAlias? value?) criteria.kept
      (clauses.map (·.predicate))) (number : String → Nat) :
  (q.completed criteria clauses terms).IsGuarded number
    (criteria.kept.map (Filter.inlined operators))
  := by
  obtain ⟨htable, halias, hq⟩ := select_eq_ok hselect
  obtain ⟨hpredicates, horder, hgrouping, hjoins⟩ :=
    completed_of_select hselect criteria clauses terms
  have hplain : ∀ name, q.rootAlias? = some name → isPlain name = true := by
    intro name hname
    apply isPlain_of_isIdentifier (halias name hname)
  constructor
  · apply isPlain_of_isFieldReference htable
  · apply hplain
  · intro s hs
    rw [completed, withClauses, hq] at hs
    obtain ⟨name, hname, rfl⟩ := Option.map_eq_some_iff.mp (Option.mem_toList.mp hs)
    rw [isPlain_append, hplain name hname]
    decide
  · apply hjoins
  · rw [hpredicates, List.forall₂_map_left_iff, List.forall₂_map_right_iff]
    apply List.Forall₂.flip
    apply hsaid.imp
    intro f p hp
    apply hp.guarded hplain
  · intro term hterm
    rw [horder] at hterm
    obtain ⟨t, -, ht⟩ := exists_rel_of_mem hterms hterm
    apply Field.isPlain_of_qualify hplain ht.1
  · intro column hcolumn
    rw [hgrouping] at hcolumn
    obtain ⟨field, -, rfl⟩ := Option.map_eq_some_iff.mp hcolumn
    apply field.isPlain_text

/-- A fresh query that is completed has all parameters it names. -/
theorem isSome_of_mem_named_completed
    (hselect : select dialect table rootAlias? = .ok q) {criteria : Criteria}
    {operators : Operators} {clauses : List Clause} (terms : List (String × Direction))
    {value? : String → Option Value}
    (hsaid : List.Forall₂ (Filter.SaidBy operators q.rootAlias? value?) criteria.kept
      (clauses.map (·.predicate))) :
  ∀ name ∈ (q.completed criteria clauses terms).named, (value? name).isSome
  := by
  intro name hname
  rw [named, (completed_of_select hselect criteria clauses terms).1] at hname
  obtain ⟨p, hp, hname⟩ := List.mem_flatMap.mp hname
  obtain ⟨f, -, hf⟩ := exists_rel_of_mem hsaid hp
  apply hf.isSome_of_mem_parameters name hname

end Query

/-- Criteria that are compiled onto a fresh query have a statement.  A scanner that reads it
ends outside strings, finds there nothing but harmless characters and minus signs, and no
comment, and the strings it finds are those the filters were given, in the order of the
filters. -/
theorem scan_of_build_eq_ok
    {dialect : Dialect} {table : String} {rootAlias? : Option String} {q q' : Query}
    (hselect : Query.select dialect table rootAlias? = .ok q) (criteria : Criteria)
    (operators : Operators)
    (h : ((Compilation.start q criteria).setOperators operators).build = .ok q') :
  ∃ r ts, q'.render = .ok r ∧ scan .outside r.sql.toList = some ts
    ∧ (∀ c ∈ outsideOf ts, isHarmless c = true ∨ c = '-')
    ∧ (¬ "--".toList <:+: outsideOf ts) ∧ (¬ "/*".toList <:+: outsideOf ts)
    ∧ stringsOf ts = criteria.kept.flatMap (Filter.inlined operators)
  := by
  obtain ⟨clauses, terms, hq', hterms, hsaid⟩ := Compilation.exists_saidBy_of_build_eq_ok h
  have hguarded := Query.isGuarded_completed hselect hterms hsaid (numberAmong q'.named)
  have hbound := Query.isSome_of_mem_named_completed hselect terms hsaid
  rw [← hq'] at hguarded hbound
  have hsql := hguarded.guarded_pieces
  rw [← Query.toList_sql_numbered, ← List.flatMap_def] at hsql
  obtain ⟨ts, hscan, hstrings, hcalm⟩ := hsql.exists_scan_eq
  exact ⟨q'.numbered, ts, q'.render_of_bound hbound, hscan, hcalm.marks, hcalm.not_comment,
    hcalm.not_blockComment, hstrings⟩

theorem scan_of_build_eq_ok_posts :
  ∃ q q' : Query, Query.select .sqlite "public.posts" (some "post") = .ok q
    ∧ ∃ criteria : Criteria,
      ((Compilation.start q criteria).setOperators
        (.ofList [("title", "like"), ("author.name", "notIn")])).build = .ok q'
    ∧ criteria.kept.flatMap
        (Filter.inlined (.ofList [("title", "like"), ("author.name", "notIn")]))
      = ["%it's -- /* %", "O'Neil", "'", ""]
    ∧ ∃ r ts, q'.render = .ok r ∧ scan .outside r.sql.toList = some ts
      ∧ (∀ c ∈ outsideOf ts, isHarmless c = true ∨ c = '-')
      ∧ (¬ "--".toList <:+: outsideOf ts) ∧ (¬ "/*".toList <:+: outsideOf ts)
      ∧ stringsOf ts = criteria.kept.flatMap
          (Filter.inlined (.ofList [("title", "like"), ("author.name", "notIn")]))
  := by
  have hselect : Query.select .sqlite "public.posts" (some "post") = .ok _ := rfl
  refine ⟨_, _, hselect, ⟨10, 2, [⟨⟨"created", by decide⟩, .descending⟩],
    some ⟨"post.id", by decide⟩,
    [⟨⟨"title", by decide⟩, .string "it's -- /* "⟩,
      ⟨⟨"price", by decide⟩, .int (-1)⟩,
      ⟨⟨"author.name", by decide⟩,
        .list [.entity (.string "O'Neil"), .int (-2), .string "'", .bool true, .string ""]⟩],
    .empty, true⟩, rfl, rfl, ?_⟩
  apply scan_of_build_eq_ok hselect
  rfl

end Shortlist
