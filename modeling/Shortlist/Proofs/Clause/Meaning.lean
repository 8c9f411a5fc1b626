import Shortlist.Compilation

/-!
# The meaning of predicates

A predicate names its parameters, so what it says depends on the values they have.
`Predicate.Says` is this meaning: given the values of all parameters, a predicate on a column
says what an operator and an operand say.  The clause of a filter says what the filter says
wherever its bindings are kept.
-/

namespace Shortlist

/-- The text of a pattern: a string as it is, a number in decimal, a truth value as a word.  Null,
lists and entities have none. -/
inductive Operand.Spells : Operand → String → Prop where
  | string (s : String) : Spells (.string s) s
  | int (n : Int64) : Spells (.int n) (Number.intText n.toInt)
  | float (x : Float) : Spells (.float x) (Number.floatText x)
  | yes : Spells (.bool true) "true"
  | no : Spells (.bool false) "false"

/-- The values of a list that holds no lists, and the one value of an operand that is no
list. -/
inductive Operand.Members : Operand → List Value → Prop where
  | list {items : List Operand} (flat : ∀ v ∈ items, v.isList = false) :
    Members (.list items) (items.map toValue)
  | lone {v : Operand} (single : v.isList = false) : Members v [v.toValue]

/-- The two members of a list of bounds, neither null nor a list. -/
inductive Operand.Bounds : Operand → Value → Value → Prop where
  | bounds {low high : Operand} (lowNull : low.isNull = false) (highNull : high.isNull = false)
      (lowList : low.isList = false) (highList : high.isList = false) :
    Bounds (.list [low, high]) low.toValue high.toValue

/-- The predicate on the column says what the operator and the operand say, when parameters
have the given values. -/
inductive Predicate.Says (value? : String → Option Value) (column : String) (v : Operand) :
    Operator → Predicate → Prop where
  | comparison {op : Operator} {name : String} (kind : op.kind = .comparison)
      (value : value? name = some v.toValue) :
    Says value? column v op (.compare column op name)
  | isNull : Says value? column v .isNull (.null column false)
  | isNotNull : Says value? column v .isNotNull (.null column true)
  | like {text : String} (spells : v.Spells text) :
    Says value? column v .like (.like column false (Text.quote ("%" ++ text ++ "%")))
  | notLike {text : String} (spells : v.Spells text) :
    Says value? column v .notLike (.like column true (Text.quote ("%" ++ text ++ "%")))
  | isIn {values : List Value} (members : v.Members values) :
    Says value? column v .isIn (.isIn column false values)
  | notIn {values : List Value} (members : v.Members values) :
    Says value? column v .notIn (.isIn column true values)
  | between {low high : Value} {lowName highName : String} (bounds : v.Bounds low high)
      (lowValue : value? lowName = some low) (highValue : value? highName = some high) :
    Says value? column v .between (.between column lowName highName)

/-- The predicate says what the filter says on a query with the given root alias, under the
operators of a table and when parameters have the given values. -/
def Filter.SaidBy (operators : Operators) (rootAlias? : Option String)
    (value? : String → Option Value) (f : Filter) (p : Predicate) : Prop :=
  ∃ op column, operators.operatorOf f.field.text = .ok op
    ∧ f.field.qualify rootAlias? = .ok column ∧ p.Says value? column f.operand op

namespace Operand

/-- The text that is read off an operand is the one it spells. -/
theorem patternText?_eq_some_iff (v : Operand) (text : String) :
  v.patternText? = some text ↔ v.Spells text
  := by
  constructor
  · intro h
    rw [patternText?.eq_def] at h
    split at h <;> cases h
    · exact .string _
    · exact .int _
    · exact .float _
    · exact .yes
    · exact .no
  · intro h
    cases h with
    | string s => rfl
    | int n => rfl
    | float x => rfl
    | yes => rfl
    | no => rfl

/-- An operand spells one text at most. -/
theorem Spells.unique {v : Operand} {text text' : String} (h : v.Spells text)
    (h' : v.Spells text') :
  text = text'
  := by
  rw [← patternText?_eq_some_iff] at h h'
  apply Option.some.inj (h.symm.trans h')

/-- The members that are read off an operand are the ones it has. -/
theorem members_of_members? {v : Operand} {values : List Value} (h : v.members? = some values) :
  v.Members values
  := by
  cases v with
  | list items =>
    simp only [members?, Option.ite_none_left_eq_some, Option.some.injEq] at h
    obtain ⟨flat, rfl⟩ := h
    apply Members.list
    simpa using flat
  | _ =>
    cases h
    apply Members.lone rfl

/-- The bounds that are read off an operand are the ones it has. -/
theorem bounds_of_bounds {v : Operand} {low high : Value} (h : v.bounds = .ok (low, high)) :
  v.Bounds low high
  := by
  unfold bounds at h
  split at h
  · rename_i low high
    split at h
    · cases h
    · rename_i hnull
      split at h
      · cases h
      · rename_i hlist
        simp only [Bool.or_eq_true, not_or, Bool.not_eq_true] at hnull hlist
        cases h
        apply Bounds.bounds hnull.1 hnull.2 hlist.1 hlist.2
  · cases h
  · cases h

end Operand

namespace Clause

/-- The predicate of a clause says what the operator and the operand say, as long as the
parameters have the values the clause binds them to. -/
theorem says_of_ofOperand
    {column : String} {op : Operator} {f : Filter} {c : Clause}
    {value? : String → Option Value} (h : ofOperand column op f = .ok c)
    (kept : ∀ b ∈ c.bindings, value? b.1 = some b.2) :
  c.predicate.Says value? column f.operand op
  := by
  rw [ofOperand] at h
  cases hk : op.kind with
  | comparison =>
    simp only [hk] at h
    cases h
    apply Predicate.Says.comparison hk
    apply kept _ (List.mem_singleton_self _)
  | nullCheck =>
    simp only [hk] at h
    cases h
    cases op with
    | isNull => apply Predicate.Says.isNull
    | isNotNull => apply Predicate.Says.isNotNull
    | _ => cases hk
  | pattern =>
    simp only [hk] at h
    cases ht : f.operand.patternText? with
    | none => simp [ht] at h
    | some text =>
      simp only [ht] at h
      cases h
      cases op with
      | like => apply Predicate.Says.like ((Operand.patternText?_eq_some_iff ..).mp ht)
      | notLike => apply Predicate.Says.notLike ((Operand.patternText?_eq_some_iff ..).mp ht)
      | _ => cases hk
  | membership =>
    simp only [hk] at h
    cases hm : f.operand.members? with
    | none => simp [hm] at h
    | some values =>
      simp only [hm] at h
      cases h
      cases op with
      | isIn => apply Predicate.Says.isIn (Operand.members_of_members? hm)
      | notIn => apply Predicate.Says.notIn (Operand.members_of_members? hm)
      | _ => cases hk
  | range =>
    simp only [hk] at h
    cases hb : f.operand.bounds with
    | error fault => simp [hb] at h
    | ok bounds =>
      simp only [hb] at h
      cases h
      cases op with
      | between =>
        apply Predicate.Says.between (Operand.bounds_of_bounds hb)
        · apply kept _ (List.mem_cons_self ..)
        · apply kept _ (List.mem_cons_of_mem _ (List.mem_singleton_self _))
      | _ => cases hk

/-- A filter has a clause when its operator is known, its field can be qualified and its
operand suits the operator. -/
theorem ofFilter_eq_ok_iff
    (operators : Operators) (rootAlias? : Option String) (f : Filter) (c : Clause) :
  ofFilter operators rootAlias? f = .ok c
    ↔ ∃ op column, operators.operatorOf f.field.text = .ok op
        ∧ f.field.qualify rootAlias? = .ok column ∧ ofOperand column op f = .ok c
  := by
  rw [ofFilter]
  cases operators.operatorOf f.field.text with
  | error e => simp
  | ok op =>
    cases f.field.qualify rootAlias? with
    | error e => simp
    | ok column => simp [mapError_eq_ok_iff]

/-- The predicate of a filter's clause says what the filter says, as long as the parameters
have the values the clause binds them to. -/
theorem saidBy_of_ofFilter
    {operators : Operators} {rootAlias? : Option String} {f : Filter} {c : Clause}
    {value? : String → Option Value} (h : ofFilter operators rootAlias? f = .ok c)
    (kept : ∀ b ∈ c.bindings, value? b.1 = some b.2) :
  f.SaidBy operators rootAlias? value? c.predicate
  := by
  obtain ⟨op, column, hop, hcolumn, hc⟩ := (ofFilter_eq_ok_iff ..).mp h
  exact ⟨op, column, hop, hcolumn, says_of_ofOperand hc kept⟩

end Clause

end Shortlist
