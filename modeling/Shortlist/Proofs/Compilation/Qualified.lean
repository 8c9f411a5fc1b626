import Shortlist.Proofs.Compilation.Fresh
import Shortlist.Proofs.Query.Agreement

/-!
# Qualified fields

On a query with a root alias a bare field stands for the same column as the field after the
alias and a dot.  Only the parameters get other names, and names are not seen in a statement:
criteria in which some bare fields are qualified with the root alias have the same statement.
-/

namespace Shortlist

/-- The second field is the first, or is the first after a name and a dot. -/
inductive Field.QualifiedBy (name : String) : Field → Field → Prop
  | keep (f : Field) : QualifiedBy name f f
  | add {f f' : Field} (bare : f.isQualified = false) (text : f'.text = name ++ "." ++ f.text) :
      QualifiedBy name f f'

/-- The second filter has the field of the first, as it is or after a name and a dot, with the
same operator and the same operand. -/
structure Filter.QualifiedBy (name : String) (operators operators' : Operators) (f f' : Filter) :
    Prop where
  field : f.field.QualifiedBy name f'.field
  operator : ∀ op, operators.operatorOf f.field.text = .ok op →
    operators'.operatorOf f'.field.text = .ok op
  operand : f'.operand = f.operand

/-- The second term orders by the field of the first, as it is or after a name and a dot, in the
same direction. -/
structure OrderTerm.QualifiedBy (name : String) (t t' : OrderTerm) : Prop where
  field : t.field.QualifiedBy name t'.field
  direction : t'.direction = t.direction

/-- The second criteria are the first with some fields of filters and of order terms put after a
name and a dot; the operators are looked up in two tables. -/
structure Criteria.QualifiedBy (name : String) (operators operators' : Operators)
    (c c' : Criteria) : Prop where
  filters : List.Forall₂ (Filter.QualifiedBy name operators operators') c.filters c'.filters
  order : List.Forall₂ (OrderTerm.QualifiedBy name) c.order c'.order
  rest : c' = { c with filters := c'.filters, order := c'.order, operators := c'.operators }

/-! ### Columns -/

/-- An empty alias is none. -/
theorem Query.rootAlias?_of_select
    {dialect : Dialect} {table : String} {rootAlias? : Option String} {q : Query}
    (h : select dialect table rootAlias? = .ok q) :
  q.rootAlias? = rootAlias?.filter (!·.isEmpty)
  := by
  rw [select] at h
  split at h
  next => cases h
  next =>
    split at h
    next => cases h
    next =>
      cases h
      rfl

/-- A field that is put after the root alias keeps its column. -/
theorem Field.QualifiedBy.qualify_eq {name : String} {f f' : Field} (h : f.QualifiedBy name f')
    {rootAlias? : Option String} (halias : ∀ other, rootAlias? = some other → other = name)
    {column : String} (hcolumn : f.qualify rootAlias? = .ok column) :
  f'.qualify rootAlias? = .ok column
  := by
  cases h with
  | keep => exact hcolumn
  | add bare text =>
    have hqualified : f'.isQualified = true := by simp [isQualified, text]
    rcases (f.qualify_eq_ok_iff rootAlias? column).mp hcolumn with ⟨h, -⟩ | ⟨-, other, ha, -, rfl⟩
    · cases bare.symm.trans h
    · obtain rfl := halias other ha
      apply (f'.qualify_eq_ok_iff ..).mpr
      exact .inl ⟨hqualified, text.symm⟩

/-- Order terms that are qualified with the root alias have the same columns. -/
theorem OrderTerm.Of.qualifiedBy {name : String} {rootAlias? : Option String}
    (halias : ∀ other, rootAlias? = some other → other = name) {ts ts' : List OrderTerm}
    (h : List.Forall₂ (OrderTerm.QualifiedBy name) ts ts')
    {terms terms' : List (String × Direction)} (hterms : Of rootAlias? ts terms)
    (hterms' : Of rootAlias? ts' terms') :
  terms' = terms
  := by
  induction h generalizing terms terms' with
  | nil =>
    cases hterms
    cases hterms'
    rfl
  | cons h _ ih =>
    cases hterms with
    | @cons _ term _ _ hterm hterms =>
      cases hterms' with
      | @cons _ term' _ _ hterm' hterms' =>
        obtain ⟨column, direction⟩ := term
        obtain ⟨column', direction'⟩ := term'
        obtain ⟨hcolumn, rfl⟩ := hterm
        obtain ⟨hcolumn', rfl⟩ := hterm'
        have hqualify := h.field.qualify_eq halias hcolumn
        obtain rfl : column = column' := Except.ok.inj (hqualify.symm.trans hcolumn')
        rw [h.direction, ih hterms hterms']

/-! ### Predicates -/

/-- An operand has one list of members at most. -/
theorem Operand.Members.unique {v : Operand} {values values' : List Value}
    (h : v.Members values) (h' : v.Members values') :
  values = values'
  := by
  cases h with
  | list =>
    cases h' with
    | list => rfl
    | lone single => cases single
  | lone single =>
    cases h' with
    | list => cases single
    | lone => rfl

/-- Two predicates that say the same of one column agree in the values of their parameters. -/
theorem Predicate.Says.agree {value? value?' : String → Option Value} {column : String}
    {v : Operand} {op : Operator} {p p' : Predicate} (h : p.Says value? column v op)
    (h' : p'.Says value?' column v op) :
  p.Agree value? value?' p'
  := by
  cases h with
  | comparison kind value =>
    cases h' with
    | comparison _ value' => exact .compare column op (value.trans value'.symm)
    | _ => cases kind
  | isNull =>
    cases h' with
    | comparison kind => cases kind
    | isNull => exact .null column false
  | isNotNull =>
    cases h' with
    | comparison kind => cases kind
    | isNotNull => exact .null column true
  | like spells =>
    cases h' with
    | comparison kind => cases kind
    | like spells' =>
      obtain rfl := spells.unique spells'
      exact .like column false _
  | notLike spells =>
    cases h' with
    | comparison kind => cases kind
    | notLike spells' =>
      obtain rfl := spells.unique spells'
      exact .like column true _
  | isIn members =>
    cases h' with
    | comparison kind => cases kind
    | isIn members' =>
      obtain rfl := members.unique members'
      exact .isIn column false _
  | notIn members =>
    cases h' with
    | comparison kind => cases kind
    | notIn members' =>
      obtain rfl := members.unique members'
      exact .isIn column true _
  | between bounds lowValue highValue =>
    cases h' with
    | comparison kind => cases kind
    | between bounds' lowValue' highValue' =>
      cases bounds
      cases bounds'
      exact .between column (lowValue.trans lowValue'.symm) (highValue.trans highValue'.symm)

/-- A filter that is qualified with the root alias is said by a predicate that agrees. -/
theorem Filter.QualifiedBy.agree {name : String} {operators operators' : Operators}
    {f f' : Filter} (h : f.QualifiedBy name operators operators' f') {rootAlias? : Option String}
    (halias : ∀ other, rootAlias? = some other → other = name)
    {value? value?' : String → Option Value} {p p' : Predicate}
    (hp : f.SaidBy operators rootAlias? value? p)
    (hp' : f'.SaidBy operators' rootAlias? value?' p') :
  p.Agree value? value?' p'
  := by
  obtain ⟨op, column, hop, hcolumn, hsays⟩ := hp
  obtain ⟨op', column', hop', hcolumn', hsays'⟩ := hp'
  obtain rfl : op = op' := Except.ok.inj ((h.operator op hop).symm.trans hop')
  have hqualify := h.field.qualify_eq halias hcolumn
  obtain rfl : column = column' := Except.ok.inj (hqualify.symm.trans hcolumn')
  rw [h.operand] at hsays'
  apply hsays.agree hsays'

theorem Filter.QualifiedBy.forall₂_agree {name : String} {operators operators' : Operators}
    {fs fs' : List Filter} (h : List.Forall₂ (Filter.QualifiedBy name operators operators') fs fs')
    {rootAlias? : Option String} (halias : ∀ other, rootAlias? = some other → other = name)
    {value? value?' : String → Option Value} {ps ps' : List Predicate}
    (hps : List.Forall₂ (Filter.SaidBy operators rootAlias? value?) fs ps)
    (hps' : List.Forall₂ (Filter.SaidBy operators' rootAlias? value?') fs' ps') :
  List.Forall₂ (Predicate.Agree value? value?') ps ps'
  := by
  induction h generalizing ps ps' with
  | nil =>
    cases hps
    cases hps'
    apply List.Forall₂.nil
  | cons h _ ih =>
    cases hps with
    | cons hp hps =>
      cases hps' with
      | cons hp' hps' =>
        apply List.Forall₂.cons
        · apply h.agree halias hp hp'
        · apply ih hps hps'

/-! ### Criteria -/

/-- Qualifying fields does not change which filters are left out. -/
theorem Criteria.QualifiedBy.kept {name : String} {operators operators' : Operators}
    {c c' : Criteria} (h : c.QualifiedBy name operators operators' c') :
  List.Forall₂ (Filter.QualifiedBy name operators operators') c.kept c'.kept
  := by
  have hskip : c'.skipNull = c.skipNull := by rw [h.rest]
  apply List.rel_filter _ h.filters
  intro f f' hf
  simp only [hf.operand, hskip]

/-- Implicit and explicit qualification give the same statement.  Where criteria are compiled
onto a fresh query with a root alias, and so are the criteria with some bare fields of filters
and of order terms put after the alias and a dot, under the same operators, both queries have
the same statement with the same values of parameters. -/
theorem render_of_qualifiedBy
    {dialect : Dialect} {table name : String} {q q₁ q₂ : Query}
    (hselect : Query.select dialect table (some name) = .ok q) (operators operators' : Operators)
    (criteria criteria' : Criteria) (h : criteria.QualifiedBy name operators operators' criteria')
    (h₁ : ((Compilation.start q criteria).setOperators operators).build = .ok q₁)
    (h₂ : ((Compilation.start q criteria').setOperators operators').build = .ok q₂) :
  ∃ r, q₁.render = .ok r ∧ q₂.render = .ok r
  := by
  have hc₁ := Compilation.compiledTo_of_build_eq_ok hselect h₁
  have hc₂ := Compilation.compiledTo_of_build_eq_ok hselect h₂
  have halias : ∀ other, q.rootAlias? = some other → other = name := by
    intro other hother
    rw [Query.rootAlias?_of_select hselect, Option.filter_eq_some_iff] at hother
    apply Option.some.inj hother.1.symm
  have horder : q₂.order = q₁.order :=
    OrderTerm.Of.qualifiedBy halias h.order hc₁.order hc₂.order
  have hrest : q₂ = { q₁ with predicates := q₂.predicates, parameters := q₂.parameters } := by
    rw [hc₂.rest, hc₁.rest, horder, h.rest]
    rfl
  have hagree := Filter.QualifiedBy.forall₂_agree h.kept halias hc₁.predicates hc₂.predicates
  use q₁.numbered
  constructor
  · apply q₁.render_of_bound hc₁.bound
  · rw [Query.numbered_eq_of_agree hrest hagree hc₁.distinct hc₂.distinct]
    apply q₂.render_of_bound hc₂.bound

/-- A range of prices, an owner and an order, with the price and the order qualified. -/
theorem render_of_qualifiedBy_posts :
  ∃ q q₁ q₂ : Query, Query.select .postgres "posts" (some "post") = .ok q
    ∧ ∃ (operators operators' : Operators) (criteria criteria' : Criteria),
      criteria.QualifiedBy "post" operators operators' criteria'
    ∧ ((Compilation.start q criteria).setOperators operators).build = .ok q₁
    ∧ ((Compilation.start q criteria').setOperators operators').build = .ok q₂
    ∧ Keyed.keys q₁.parameters = ["price_from", "price_to", "owner"]
    ∧ Keyed.keys q₂.parameters = ["post_price_from", "post_price_to", "owner"]
    ∧ ∃ r, q₁.render = .ok r ∧ q₂.render = .ok r
  := by
  let price : Field := ⟨"price", by decide⟩
  let price' : Field := ⟨"post.price", by decide⟩
  let owner : Field := ⟨"owner", by decide⟩
  let created : Field := ⟨"created", by decide⟩
  let created' : Field := ⟨"post.created", by decide⟩
  let operators : Operators := .ofList [("price", "between")]
  let operators' : Operators := .ofList [("post.price", "between")]
  let criteria : Criteria :=
    { Criteria.standard with
      filters := [⟨price, .list [.int 1, .int 5]⟩, ⟨owner, .string "ann"⟩]
      order := [⟨created, .descending⟩] }
  let criteria' : Criteria :=
    { Criteria.standard with
      filters := [⟨price', .list [.int 1, .int 5]⟩, ⟨owner, .string "ann"⟩]
      order := [⟨created', .descending⟩] }
  have hprice : Filter.QualifiedBy "post" operators operators' ⟨price, .list [.int 1, .int 5]⟩
      ⟨price', .list [.int 1, .int 5]⟩ := ⟨.add (by decide) (by decide), fun _ h => h, rfl⟩
  have howner : Filter.QualifiedBy "post" operators operators' ⟨owner, .string "ann"⟩
      ⟨owner, .string "ann"⟩ := ⟨.keep owner, fun _ h => h, rfl⟩
  have hcreated : OrderTerm.QualifiedBy "post" ⟨created, .descending⟩ ⟨created', .descending⟩ :=
    ⟨.add (by decide) (by decide), rfl⟩
  have h : criteria.QualifiedBy "post" operators operators' criteria' :=
    ⟨.cons hprice (.cons howner .nil), .cons hcreated .nil, rfl⟩
  let q : Query := ⟨.postgres, "posts", some "post", ["post.*"], [], [], [], [], none, none, none⟩
  have hselect : Query.select .postgres "posts" (some "post") = .ok q := rfl
  obtain ⟨q₁, h₁, hkeys₁⟩ : ∃ q₁, ((Compilation.start q criteria).setOperators operators).build
      = .ok q₁ ∧ Keyed.keys q₁.parameters = ["price_from", "price_to", "owner"] :=
    exists_eq_ok_of_map_toOption (by decide +kernel)
  obtain ⟨q₂, h₂, hkeys₂⟩ : ∃ q₂, ((Compilation.start q criteria').setOperators operators').build
      = .ok q₂ ∧ Keyed.keys q₂.parameters = ["post_price_from", "post_price_to", "owner"] :=
    exists_eq_ok_of_map_toOption (by decide +kernel)
  exact ⟨q, q₁, q₂, hselect, operators, operators', criteria, criteria', h, h₁, h₂, hkeys₁, hkeys₂,
    render_of_qualifiedBy hselect operators operators' criteria criteria' h h₁ h₂⟩

end Shortlist
