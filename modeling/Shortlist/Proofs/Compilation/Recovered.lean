import Shortlist.Proofs.Compilation.Fresh
import Shortlist.Proofs.Query.Recovered

/-!
# Criteria read off statements

What criteria without doubles are compiled to on a fresh query can be read off the statement and
the values sent with it: nothing is lost but the names of parameters and the columns of lists
without values.
-/

namespace Shortlist

open Text

/-- There is no double among the operands of the filters, at any depth. -/
def Criteria.IsFloatFree (c : Criteria) : Prop :=
  ∀ f ∈ c.filters, f.operand.toValue.isFloatFree = true

instance (c : Criteria) : Decidable c.IsFloatFree :=
  inferInstanceAs (Decidable (∀ f ∈ c.filters, _))

/-- The members of an operand without doubles have legible literals. -/
theorem Operand.Members.isLegible {v : Operand} {values : List Value} (h : v.Members values)
    (hv : v.toValue.isFloatFree = true) :
  ∀ w ∈ values, w.isLegible .postgres = true
  := by
  rw [← Value.isLegible_postgres] at hv
  cases h with
  | list => rwa [toValue, toValues_eq_map, Value.isLegible_array_iff] at hv
  | lone => rwa [List.forall_mem_singleton]

/-- A predicate that says what a filter without doubles says can be read off its text. -/
theorem Filter.SaidBy.legible {operators : Operators} {rootAlias? : Option String}
    {value? : String → Option Value} {f : Filter} {p : Predicate}
    (h : f.SaidBy operators rootAlias? value? p)
    (halias : ∀ name, rootAlias? = some name → IsName name)
    (hf : f.operand.toValue.isFloatFree = true) :
  p.Legible .postgres
  := by
  obtain ⟨op, column, -, hcolumn, hsays⟩ := h
  have hname := Field.isName_of_qualify halias hcolumn
  cases hsays with
  | @comparison op name kind => exact .compare name hname kind
  | isNull => exact .null false hname
  | isNotNull => exact .null true hname
  | like => exact .like false _ hname
  | notLike => exact .like true _ hname
  | isIn members => exact .isIn false hname (members.isLegible hf)
  | notIn members => exact .isIn true hname (members.isLegible hf)
  | between => exact .between _ _ hname

/-- A query to which criteria without doubles were compiled from a fresh one is legible. -/
theorem Criteria.CompiledTo.isLegible {table : String} {rootAlias? : Option String}
    {criteria : Criteria} {operators : Operators} {q q' : Query}
    (hselect : Query.select .postgres table rootAlias? = .ok q)
    (h : criteria.CompiledTo operators q q') (hfree : criteria.IsFloatFree) :
  q'.IsLegible
  := by
  obtain ⟨htable, halias, hq⟩ := Query.select_eq_ok hselect
  have hname : ∀ name, q.rootAlias? = some name → IsName name := by
    intro name hname
    apply isName_of_isIdentifier (halias name hname)
  constructor
  · rw [h.rest, hq]
  · rw [h.rest]
    apply isName_of_isFieldReference htable
  · rw [h.rest]
    apply halias
  · rw [h.rest, hq]
  · rw [h.rest, hq]
  · intro p hp
    obtain ⟨f, hf, hsaid⟩ := exists_rel_of_mem h.predicates hp
    apply hsaid.legible hname (hfree f (List.mem_of_mem_filter hf))
  · intro term hterm
    obtain ⟨t, -, ht⟩ := exists_rel_of_mem h.order hterm
    apply Field.isName_of_qualify hname ht.1
  · intro column hcolumn
    rw [h.rest] at hcolumn
    obtain ⟨field, -, rfl⟩ := Option.map_eq_some_iff.mp hcolumn
    apply isName_of_isFieldReference field.valid

/-- Rendering loses nothing.  Where criteria without doubles are compiled onto two fresh
queries, and the statements are the same with the same values, the queries have the same table,
root alias, order, grouping, limit and offset, and their predicates agree one by one, but for the
names of parameters and the columns of lists without values. -/
theorem agree_of_render_eq
    {table table' : String} {rootAlias? rootAlias?' : Option String} {q q' q₁ q₂ : Query}
    (hselect : Query.select .postgres table rootAlias? = .ok q)
    (hselect' : Query.select .postgres table' rootAlias?' = .ok q')
    (criteria criteria' : Criteria) (operators operators' : Operators)
    (hfree : criteria.IsFloatFree) (hfree' : criteria'.IsFloatFree)
    (h₁ : ((Compilation.start q criteria).setOperators operators).build = .ok q₁)
    (h₂ : ((Compilation.start q' criteria').setOperators operators').build = .ok q₂)
    (hrender : q₁.render = q₂.render) :
  q₁.Agree q₁.parameter? q₂.parameter? q₂
  := by
  have hc₁ := Compilation.compiledTo_of_build_eq_ok hselect h₁
  have hc₂ := Compilation.compiledTo_of_build_eq_ok hselect' h₂
  rw [q₁.render_of_bound hc₁.bound, q₂.render_of_bound hc₂.bound, Except.ok.injEq] at hrender
  apply (hc₁.isLegible hselect hfree).agree_of_numbered_eq (hc₂.isLegible hselect' hfree')
    hc₁.bound hc₂.bound hrender

/-- Two queries for posts with one statement: the price is qualified in one of them only, and the
lists without values are in different columns. -/
theorem agree_of_render_eq_posts :
  ∃ (q q₁ q₂ : Query) (operators operators' : Operators) (criteria criteria' : Criteria),
    Query.select .postgres "posts" (some "p") = .ok q
    ∧ ((Compilation.start q criteria).setOperators operators).build = .ok q₁
    ∧ ((Compilation.start q criteria').setOperators operators').build = .ok q₂
    ∧ q₁.predicates.map (·.parameters) = [["price"], [], []]
    ∧ q₂.predicates.map (·.parameters) = [["p_price"], [], []]
    ∧ q₁.render = q₂.render ∧ q₁.Agree q₁.parameter? q₂.parameter? q₂
  := by
  have hselect : Query.select .postgres "posts" (some "p") = .ok
    ⟨.postgres, "posts", some "p", ["p.*"], [], [], [], [], none, none, none⟩ := rfl
  obtain ⟨q₁, h₁, hnames₁, hrender₁⟩ : ∃ q₁, ((Compilation.start
      ⟨.postgres, "posts", some "p", ["p.*"], [], [], [], [], none, none, none⟩
      ⟨0, 1, [], none,
        [⟨⟨"price", by decide⟩, .int 5⟩,
          ⟨⟨"author", by decide⟩, .list [.entity (.string "O'Neil"), .bool true]⟩,
          ⟨⟨"tag", by decide⟩, .list []⟩], .empty, true⟩).setOperators
      (.ofList [("price", "lt"), ("author", "notIn"), ("tag", "in")])).build = .ok q₁
      ∧ q₁.predicates.map (·.parameters) = [["price"], [], []]
      ∧ q₁.render = .ok
        ⟨"SELECT p.* FROM posts p WHERE p.price < $1 AND p.author NOT IN ('O''Neil', TRUE) AND 1=0",
          [.int 5]⟩ := ⟨_, rfl, rfl, rfl⟩
  obtain ⟨q₂, h₂, hnames₂, hrender₂⟩ : ∃ q₂, ((Compilation.start
      ⟨.postgres, "posts", some "p", ["p.*"], [], [], [], [], none, none, none⟩
      ⟨0, 1, [], none,
        [⟨⟨"p.price", by decide⟩, .int 5⟩,
          ⟨⟨"author", by decide⟩, .list [.entity (.string "O'Neil"), .bool true]⟩,
          ⟨⟨"label", by decide⟩, .list []⟩], .empty, true⟩).setOperators
      (.ofList [("p.price", "lt"), ("author", "notIn"), ("label", "in")])).build = .ok q₂
      ∧ q₂.predicates.map (·.parameters) = [["p_price"], [], []]
      ∧ q₂.render = .ok
        ⟨"SELECT p.* FROM posts p WHERE p.price < $1 AND p.author NOT IN ('O''Neil', TRUE) AND 1=0",
          [.int 5]⟩ := ⟨_, rfl, rfl, rfl⟩
  have hrender : q₁.render = q₂.render := hrender₁.trans hrender₂.symm
  exact ⟨_, q₁, q₂, _, _, _, _, hselect, h₁, h₂, hnames₁, hnames₂, hrender,
    agree_of_render_eq hselect hselect _ _ _ _ (by decide) (by decide) h₁ h₂ hrender⟩

end Shortlist
