import Shortlist.Proofs.Clause.Refusal
import Shortlist.Proofs.Criteria.Written
import Shortlist.Proofs.Lists

/-!
# Accepted options

A tree of raw options is accepted when it belongs to a grammar, which says for each option what
its tree may be, whatever is read of it.  An accepted tree is read as the criteria that hold
what its options stand for, and the standard values for the options that are absent or null.
-/

namespace Shortlist

namespace Json

/-! ### Operands -/

/-- The second tree is met in the first by going into lists alone. -/
inductive Reaches : Json → Json → Prop
  | refl (j : Json) : Reaches j j
  | item {items : List Json} {j k : Json} (member : j ∈ items) (h : Reaches j k) :
      Reaches (.array items) k

/-- The tree found in a tree by going into lists at the given indices. -/
def at? : Json → List Nat → Option Json
  | j, [] => some j
  | .array items, i :: path => items[i]?.bind (·.at? path)
  | _, _ :: _ => none

/-- The members of an object hold an id, a number or a string. -/
inductive HasId (members : List (String × Json)) : Prop
  | number {n : Number} (h : Keyed.get? "id" members = some (.number n))
  | string {s : String} (h : Keyed.get? "id" members = some (.string s))

/-- Every object that is met by going into lists alone has an id. -/
def HasIds (j : Json) : Prop :=
  ∀ members, j.Reaches (.object members) → HasId members

/-- An object is read as an entity exactly when it has an id. -/
theorem exists_idOf?_iff (members : List (String × Json)) :
  (∃ id, Operand.idOf? members = some id) ↔ HasId members
  := by
  constructor
  · rintro ⟨id, h⟩
    rw [Operand.idOf?.eq_def] at h
    split at h
    · apply HasId.number
      assumption
    · apply HasId.string
      assumption
    · cases h
  · rintro (h | h)
    · exact ⟨_, by rw [Operand.idOf?, h]⟩
    · exact ⟨_, by rw [Operand.idOf?, h]⟩

/-- The objects of a list are the objects of its items. -/
theorem hasIds_array_iff (items : List Json) :
  (array items).HasIds ↔ ∀ j ∈ items, j.HasIds
  := by
  constructor
  · intro h j hj members hreaches
    apply h members (.item hj hreaches)
  · intro h members hreaches
    cases hreaches with
    | item hj hreaches => apply h _ hj members hreaches

mutual

/-- A tree is read as some operand exactly when every object in it has an id. -/
theorem exists_isOperand_iff (j : Json) :
  (∃ v, j.IsOperand v) ↔ j.HasIds
  := by
  cases j with
  | null =>
    apply iff_of_true ⟨_, .null⟩
    rintro _ ⟨⟩
  | bool b =>
    apply iff_of_true ⟨_, .bool b⟩
    rintro _ ⟨⟩
  | number n =>
    apply iff_of_true
    · cases h : n.toInt64? with
      | some i => exact ⟨_, .int h⟩
      | none => exact ⟨_, .float h⟩
    · rintro _ ⟨⟩
  | string s =>
    apply iff_of_true ⟨_, .string s⟩
    rintro _ ⟨⟩
  | array items =>
    have hitems : (∃ v, (array items).IsOperand v) ↔ ∃ vs, List.Forall₂ IsOperand items vs := by
      constructor
      · rintro ⟨_, ⟨⟩⟩
        exact ⟨_, ‹_›⟩
      · rintro ⟨vs, h⟩
        exact ⟨_, .list h⟩
    rw [hitems, exists_forall₂_iff, hasIds_array_iff]
    apply forall₂_congr
    apply exists_isOperand_of_mem
  | object members =>
    have hid : (∃ v, (object members).IsOperand v) ↔ ∃ id, Operand.idOf? members = some id := by
      constructor
      · rintro ⟨_, ⟨⟩⟩
        exact ⟨_, ‹_›⟩
      · rintro ⟨id, h⟩
        exact ⟨_, .entity h⟩
    rw [hid, exists_idOf?_iff]
    constructor
    · rintro h _ ⟨⟩
      exact h
    · intro h
      apply h members (.refl _)

/-- Each item of a list is read as some operand exactly when every object in it has an id. -/
theorem exists_isOperand_of_mem (items : List Json) :
  ∀ j ∈ items, ((∃ v, j.IsOperand v) ↔ j.HasIds)
  := by
  cases items with
  | nil => simp
  | cons j items =>
    exact List.forall_mem_cons.mpr ⟨exists_isOperand_iff j, exists_isOperand_of_mem items⟩

end

/-- The members of an option object; null stands for an object without members. -/
inductive HasOptions : Json → List (String × Json) → Prop
  | null : HasOptions .null []
  | object (members : List (String × Json)) : HasOptions (.object members) members

end Json

namespace Criteria

/-! ### Options that are absent or null -/

variable {α : Type} {members : List (String × Json)} {name : String}

/-- The option is absent or null, or its tree is of the given kind. -/
def Allows (members : List (String × Json)) (name : String) (kind : Json → Prop) : Prop :=
  ∀ j, Keyed.get? name members = some j → j = .null ∨ kind j

/-- The option has the value its tree stands for, the standard one when it is absent or
null. -/
inductive OptionIs (members : List (String × Json)) (name : String) (standard : α)
    (stands : Json → α → Prop) : α → Prop
  | absent (h : Keyed.get? name members = none) : OptionIs members name standard stands standard
  | null (h : Keyed.get? name members = some .null) :
      OptionIs members name standard stands standard
  | given {j : Json} {a : α} (h : Keyed.get? name members = some j) (notNull : j ≠ .null)
      (value : stands j a) : OptionIs members name standard stands a

/-- An option is read as the value it has, when its reader reads a tree as what it stands for. -/
theorem orStandard_eq_ok_iff {read : Json → Except Error α} {stands : Json → α → Prop}
    (h : ∀ j a, read j = .ok a ↔ stands j a) (standard a : α) :
  orStandard standard read (option? members name) = .ok a
    ↔ OptionIs members name standard stands a
  := by
  rw [option?]
  constructor
  · intro ha
    cases hget : Keyed.get? name members with
    | none =>
      rw [hget] at ha
      cases ha
      exact .absent hget
    | some j =>
      rw [hget] at ha
      by_cases hj : j = .null
      · subst hj
        cases ha
        exact .null hget
      · have hnull : j.isNull = false := by cases j <;> trivial
        rw [Option.filter_some, hnull] at ha
        exact .given hget hj ((h j a).mp ha)
  · intro ha
    cases ha with
    | absent hget => rw [hget]; rfl
    | null hget => rw [hget]; rfl
    | given hget hj value =>
      rename_i j
      have hnull : j.isNull = false := by cases j <;> trivial
      rw [hget, Option.filter_some, hnull]
      exact (h j a).mpr value

/-- An option has some value exactly when its tree is of the kind that stands for values. -/
theorem exists_optionIs_iff {stands : Json → α → Prop} {kind : Json → Prop}
    (h : ∀ j, (∃ a, stands j a) ↔ kind j) (standard : α) :
  (∃ a, OptionIs members name standard stands a) ↔ Allows members name kind
  := by
  constructor
  · rintro ⟨a, ha⟩ j hj
    cases ha with
    | absent hget =>
      rw [hget] at hj
      cases hj
    | null hget =>
      rw [hget] at hj
      cases hj
      exact .inl rfl
    | given hget _ value =>
      rw [hget] at hj
      cases hj
      exact .inr ((h _).mp ⟨_, value⟩)
  · intro hallows
    cases hget : Keyed.get? name members with
    | none => exact ⟨_, .absent hget⟩
    | some j =>
      by_cases hj : j = .null
      · subst hj
        exact ⟨_, .null hget⟩
      · obtain ⟨a, ha⟩ := (h j).mpr ((hallows j hget).resolve_left hj)
        exact ⟨a, .given hget hj ha⟩

/-! ### The order -/

/-- The tree stands for the order terms. -/
def IsOrder (j : Json) (ts : List OrderTerm) : Prop :=
  ∃ items, j = .array items ∧ List.Forall₂ IsOrderTerm items ts

/-- The grammar of an order term: a field, and a direction that may be absent or null. -/
inductive IsTermTree : Json → Prop
  | mk {members : List (String × Json)} {s : String}
      (known : ∀ name ∈ Keyed.keys members, name = "by" ∨ name = "dir")
      (field : Keyed.get? "by" members = some (.string s)) (valid : isFieldReference s = true)
      (direction : Allows members "dir" fun j =>
        ∃ token ∈ ["asc", "desc", "ASC", "DESC"], j = .string token) :
      IsTermTree (.object members)

theorem exists_ofToken?_iff (s : String) :
  (∃ d, Direction.ofToken? s = some d) ↔ s ∈ ["asc", "desc", "ASC", "DESC"]
  := by
  rw [Direction.ofToken?]
  split_ifs <;> simp_all
  tauto

/-- There is a direction exactly when its tree is one of the tokens, null or absent. -/
theorem exists_isDirection_iff (members : List (String × Json)) :
  (∃ d, IsDirection (Keyed.get? "dir" members) d)
    ↔ Allows members "dir" fun j => ∃ token ∈ ["asc", "desc", "ASC", "DESC"], j = .string token
  := by
  rw [Allows]
  cases Keyed.get? "dir" members with
  | none => exact iff_of_true ⟨_, .absent⟩ (by simp)
  | some j =>
    simp only [Option.some.injEq, forall_eq']
    constructor
    · rintro ⟨_, _ | _ | hd⟩
      · exact .inl rfl
      · exact .inr ⟨_, (exists_ofToken?_iff _).mp ⟨_, hd⟩, rfl⟩
    · rintro (rfl | ⟨token, htoken, rfl⟩)
      · exact ⟨_, .null⟩
      · obtain ⟨d, hd⟩ := (exists_ofToken?_iff token).mpr htoken
        exact ⟨d, .token hd⟩

/-- A tree is read as some order term exactly when it has the grammar of one. -/
theorem exists_isOrderTerm_iff (j : Json) :
  (∃ t, IsOrderTerm j t) ↔ IsTermTree j
  := by
  constructor
  · rintro ⟨t, ⟨known, field, direction⟩⟩
    apply IsTermTree.mk known field t.field.valid
    apply (exists_isDirection_iff _).mp ⟨_, direction⟩
  · rintro ⟨known, field, valid, direction⟩
    obtain ⟨d, hd⟩ := (exists_isDirection_iff _).mpr direction
    exact ⟨⟨⟨_, valid⟩, d⟩, .mk known field hd⟩

/-- A tree stands for some order exactly when it is an array of order terms. -/
theorem exists_isOrder_iff (j : Json) :
  (∃ ts, IsOrder j ts) ↔ ∃ items, j = .array items ∧ ∀ i ∈ items, IsTermTree i
  := by
  simp only [IsOrder, exists_comm (α := List OrderTerm), exists_and_left, exists_forall₂_iff,
    exists_isOrderTerm_iff]

/-! ### Filters and operators -/

/-- The tree stands for the filters. -/
def IsFilters (j : Json) (fs : List Filter) : Prop :=
  (∃ ms, j = .object ms ∧ List.Forall₂ IsFilter ms fs) ∨ j = .array [] ∧ fs = []

/-- The tree stands for the table of operators: the table of its members, or the empty one. -/
def IsOperators (j : Json) (t : Operators) : Prop :=
  (∃ ms ops, j = .object ms ∧ List.Forall₂ IsOperatorEntry ms ops ∧ t.IsTableOf ops)
    ∨ j = .array [] ∧ t = .empty

/-- A tree is read as the table of operators it stands for. -/
theorem readOperators_eq_ok_iff_isOperators (j : Json) (t : Operators) :
  readOperators j = .ok t ↔ IsOperators j t
  := by
  simp only [IsOperators, Operators.isTableOf_iff]
  apply readOperators_eq_ok_iff

/-- A member is some filter exactly when its name is a field and every object in it has an id. -/
theorem exists_isFilter_iff (m : String × Json) :
  (∃ f, IsFilter m f) ↔ isFieldReference m.1 = true ∧ m.2.HasIds
  := by
  rw [← Json.exists_isOperand_iff]
  constructor
  · rintro ⟨f, hname, hoperand⟩
    rw [hname]
    exact ⟨f.field.valid, _, hoperand⟩
  · rintro ⟨valid, v, hv⟩
    exact ⟨⟨⟨_, valid⟩, v⟩, rfl, hv⟩

/-- A tree stands for some filters exactly when it is an object of filters or an empty array. -/
theorem exists_isFilters_iff (j : Json) :
  (∃ fs, IsFilters j fs)
    ↔ j = .array [] ∨ ∃ ms, j = .object ms ∧ ∀ m ∈ ms, isFieldReference m.1 = true ∧ m.2.HasIds
  := by
  simp only [IsFilters, exists_or, exists_comm (α := List Filter), exists_and_left,
    exists_forall₂_iff, exists_isFilter_iff, exists_eq, and_true, or_comm]

theorem exists_ofTag?_iff (tag : String) :
  (∃ op, Operator.ofTag? tag = some op) ↔ tag ∈ Operator.acceptedTags
  := by
  rw [← not_iff_not, ← Operator.ofTag?_eq_none_iff]
  cases Operator.ofTag? tag <;> simp

/-- A member is some entry of a table exactly when its name is a field and its tree a tag. -/
theorem exists_isOperatorEntry_iff (m : String × Json) :
  (∃ e, IsOperatorEntry m e)
    ↔ isFieldReference m.1 = true
      ∧ ∃ tag, m.2 = .string tag ∧ tag ∈ Operator.acceptedTags
  := by
  simp only [← exists_ofTag?_iff]
  constructor
  · rintro ⟨e, -, valid, tag, htag, hop⟩
    exact ⟨valid, tag, htag, _, hop⟩
  · rintro ⟨valid, tag, htag, op, hop⟩
    exact ⟨(m.1, op), rfl, valid, tag, htag, hop⟩

/-- A tree stands for some table exactly when it is an object of tags or an empty array. -/
theorem exists_isOperators_iff (j : Json) :
  (∃ t, IsOperators j t)
    ↔ j = .array [] ∨ ∃ ms, j = .object ms ∧ ∀ m ∈ ms, isFieldReference m.1 = true
      ∧ ∃ tag, m.2 = .string tag ∧ tag ∈ Operator.acceptedTags
  := by
  simp only [← exists_isOperatorEntry_iff, ← exists_forall₂_iff]
  constructor
  · rintro ⟨t, ⟨ms, ops, rfl, hops, -⟩ | ⟨rfl, -⟩⟩
    · exact .inr ⟨ms, rfl, ops, hops⟩
    · exact .inl rfl
  · rintro (rfl | ⟨ms, rfl, ops, hops⟩)
    · exact ⟨_, .inr ⟨rfl, rfl⟩⟩
    · exact ⟨_, .inl ⟨ms, ops, rfl, hops, Operators.isTableOf_insertAll ops⟩⟩

/-! ### Grouping and null operands -/

/-- The tree stands for the grouping: the field of its text, none when the text is empty. -/
def IsGrouping (j : Json) (grouping? : Option Field) : Prop :=
  ∃ s, j = .string s ∧ grouping?.map (·.text) = if s.isEmpty then none else some s

theorem readGrouping_eq_ok_iff_isGrouping (j : Json) (grouping? : Option Field) :
  readGrouping j = .ok grouping? ↔ IsGrouping j grouping?
  := by
  cases j with
  | string s => simp [readGrouping_eq_ok_iff, IsGrouping]
  | _ => simp [readGrouping, mistyped, IsGrouping]

/-- A tree stands for some grouping exactly when it is an empty text or that of a field. -/
theorem exists_isGrouping_iff (j : Json) :
  (∃ grouping?, IsGrouping j grouping?)
    ↔ ∃ s, j = .string s ∧ (s = "" ∨ isFieldReference s = true)
  := by
  constructor
  · rintro ⟨grouping?, s, rfl, h⟩
    refine ⟨s, rfl, ?_⟩
    split_ifs at h with hempty
    · exact .inl (String.isEmpty_iff.mp hempty)
    · obtain ⟨f, -, rfl⟩ := Option.map_eq_some_iff.mp h
      exact .inr f.valid
  · rintro ⟨s, rfl, rfl | valid⟩
    · exact ⟨none, "", rfl, rfl⟩
    · refine ⟨some ⟨s, valid⟩, s, rfl, ?_⟩
      rw [if_neg]
      · rfl
      · intro hempty
        rw [String.isEmpty_iff.mp hempty] at valid
        revert valid
        decide

theorem readSkipNull_eq_ok_iff (j : Json) (b : Bool) :
  readSkipNull j = .ok b ↔ j = .bool b
  := by cases j <;> simp [readSkipNull, mistyped]

/-! ### All options -/

/-- The grammar of option objects. -/
structure IsWellFormed (members : List (String × Json)) : Prop where
  known : ∀ name ∈ Keyed.keys members, name ∈ optionNames
  items : Allows members "items" fun j => ∃ n, j.IsInteger n ∧ 0 ≤ n ∧ n < 2 ^ 32
  page : Allows members "page" fun j => ∃ n, j.IsInteger n ∧ 1 ≤ n ∧ n < 2 ^ 32
  order : Allows members "order" fun j => ∃ items, j = .array items ∧ ∀ i ∈ items, IsTermTree i
  filters : Allows members "filters" fun j => j = .array []
    ∨ ∃ ms, j = .object ms ∧ ∀ m ∈ ms, isFieldReference m.1 = true ∧ m.2.HasIds
  operators : Allows members "operators" fun j => j = .array []
    ∨ ∃ ms, j = .object ms ∧ ∀ m ∈ ms, isFieldReference m.1 = true
        ∧ ∃ tag, m.2 = .string tag ∧ tag ∈ Operator.acceptedTags
  grouping : Allows members "group_by" fun j =>
    ∃ s, j = .string s ∧ (s = "" ∨ isFieldReference s = true)
  skipNull : Allows members "skip_null_values" fun j => ∃ b, j = .bool b

/-- The criteria hold what the options stand for. -/
structure Holds (members : List (String × Json)) (c : Criteria) : Prop where
  known : ∀ name ∈ Keyed.keys members, name ∈ optionNames
  items : OptionIs members "items" 25 (fun j n => j.IsInteger (UInt32.toNat n)) c.items
  page : OptionIs members "page" 1 (fun j n => j.IsInteger (UInt32.toNat n) ∧ 1 ≤ n.toNat) c.page
  order : OptionIs members "order" [] IsOrder c.order
  filters : OptionIs members "filters" [] IsFilters c.filters
  operators : OptionIs members "operators" .empty IsOperators c.operators
  grouping : OptionIs members "group_by" none IsGrouping c.grouping?
  skipNull : OptionIs members "skip_null_values" true (fun j b => j = .bool b) c.skipNull

/-- Members are read as the criteria that hold what they stand for. -/
theorem ofMembers_eq_ok_iff_holds (members : List (String × Json)) (c : Criteria) :
  ofMembers members = .ok c ↔ Holds members c
  := by
  rw [ofMembers_eq_ok_iff, orStandard_eq_ok_iff readItems_eq_ok_iff,
    orStandard_eq_ok_iff readPage_eq_ok_iff, orStandard_eq_ok_iff readOrder_eq_ok_iff,
    orStandard_eq_ok_iff readFilters_eq_ok_iff,
    orStandard_eq_ok_iff readOperators_eq_ok_iff_isOperators,
    orStandard_eq_ok_iff readGrouping_eq_ok_iff_isGrouping,
    orStandard_eq_ok_iff readSkipNull_eq_ok_iff]
  constructor
  · rintro ⟨known, items, page, order, filters, operators, grouping, skipNull⟩
    exact ⟨known, items, page, order, filters, operators, grouping, skipNull⟩
  · rintro ⟨known, items, page, order, filters, operators, grouping, skipNull⟩
    exact ⟨known, items, page, order, filters, operators, grouping, skipNull⟩

/-- Options stand for some criteria exactly when they belong to the grammar. -/
theorem exists_holds_iff (members : List (String × Json)) :
  (∃ c, Holds members c) ↔ IsWellFormed members
  := by
  have hitems (j : Json) : (∃ n : UInt32, j.IsInteger n.toNat)
      ↔ ∃ n, j.IsInteger n ∧ 0 ≤ n ∧ n < 2 ^ 32 := by
    simpa using exists_isInteger_iff j 0
  constructor
  · rintro ⟨c, h⟩
    constructor
    · apply h.known
    · apply (exists_optionIs_iff hitems _).mp ⟨_, h.items⟩
    · apply (exists_optionIs_iff (exists_isInteger_iff · 1) _).mp ⟨_, h.page⟩
    · apply (exists_optionIs_iff exists_isOrder_iff _).mp ⟨_, h.order⟩
    · apply (exists_optionIs_iff exists_isFilters_iff _).mp ⟨_, h.filters⟩
    · apply (exists_optionIs_iff exists_isOperators_iff _).mp ⟨_, h.operators⟩
    · apply (exists_optionIs_iff exists_isGrouping_iff _).mp ⟨_, h.grouping⟩
    · apply (exists_optionIs_iff (fun _ => Iff.rfl) _).mp ⟨_, h.skipNull⟩
  · intro h
    obtain ⟨items, hitems⟩ := (exists_optionIs_iff hitems 25).mpr h.items
    obtain ⟨page, hpage⟩ := (exists_optionIs_iff (exists_isInteger_iff · 1) 1).mpr h.page
    obtain ⟨order, horder⟩ := (exists_optionIs_iff exists_isOrder_iff []).mpr h.order
    obtain ⟨filters, hfilters⟩ := (exists_optionIs_iff exists_isFilters_iff []).mpr h.filters
    obtain ⟨operators, hoperators⟩ :=
      (exists_optionIs_iff exists_isOperators_iff .empty).mpr h.operators
    obtain ⟨grouping?, hgrouping⟩ :=
      (exists_optionIs_iff exists_isGrouping_iff none).mpr h.grouping
    obtain ⟨skipNull, hskipNull⟩ :=
      (exists_optionIs_iff (fun _ => Iff.rfl) true).mpr h.skipNull
    exact ⟨⟨items, page, order, grouping?, filters, operators, skipNull⟩,
      ⟨h.known, hitems, hpage, horder, hfilters, hoperators, hgrouping, hskipNull⟩⟩

/-- Raw options are read as the criteria that hold what their members stand for. -/
theorem ofOptions_eq_ok_iff_holds (r : Json) (c : Criteria) :
  ofOptions r = .ok c ↔ ∃ members, r.HasOptions members ∧ Holds members c
  := by
  simp only [← ofMembers_eq_ok_iff_holds]
  constructor
  · intro h
    cases r with
    | null => exact ⟨[], .null, h⟩
    | object members => exact ⟨members, .object members, h⟩
    | _ => cases h
  · rintro ⟨_, ⟨⟩, h⟩
    · exact h
    · exact h

/-- Raw options are read as criteria exactly when they belong to the grammar, and the criteria
hold precisely what the options stand for. -/
theorem ofOptions_iff_grammar (r : Json) :
  ((∃ c, ofOptions r = .ok c) ↔ ∃ members, r.HasOptions members ∧ IsWellFormed members)
    ∧ ∀ c, ofOptions r = .ok c ↔ ∃ members, r.HasOptions members ∧ Holds members c
  := by
  constructor
  · simp only [ofOptions_eq_ok_iff_holds, ← exists_holds_iff]
    constructor
    · rintro ⟨c, members, hmembers, h⟩
      exact ⟨members, hmembers, c, h⟩
    · rintro ⟨members, hmembers, c, h⟩
      exact ⟨c, members, hmembers, h⟩
  · apply ofOptions_eq_ok_iff_holds

/-- A table of operators holds the tag of every operator, however the options spell it, and
nothing for other fields; a tag of no operator is refused. -/
theorem ofOptions_iff_grammar_posts :
  (∃ c, ofOptions (.object [("operators", .object [("title", .string "like"),
      ("id", .string "notin")])]) = .ok c
    ∧ c.operators.get? "title" = some "like" ∧ c.operators.get? "id" = some "notIn"
    ∧ c.operators.get? "author" = none)
    ∧ ¬∃ c, ofOptions (.object [("operators", .object [("title", .string "LIKE")])]) = .ok c
  := by
  constructor
  · let table : Operators := ⟨[("id", "notIn"), ("title", "like")]⟩
    have htable : table.IsTableOf [("title", .like), ("id", .notIn)] :=
      (Operators.isTableOf_iff ..).mpr (by decide)
    have hentries : List.Forall₂ IsOperatorEntry
        [("title", .string "like"), ("id", .string "notin")] [("title", .like), ("id", .notIn)] :=
      .cons ⟨rfl, by decide, "like", rfl, by decide⟩
        (.cons ⟨rfl, by decide, "notin", rfl, by decide⟩ .nil)
    refine ⟨{ standard with operators := table }, ?_, rfl, rfl, rfl⟩
    refine ((ofOptions_iff_grammar _).2 _).mpr ⟨_, .object _, ?_⟩
    constructor
    case operators => exact .given rfl (by simp) (.inl ⟨_, _, rfl, hentries, htable⟩)
    case known => decide
    all_goals exact .absent rfl
  · rw [(ofOptions_iff_grammar _).1]
    rintro ⟨_, ⟨⟩, h⟩
    rcases h.operators _ rfl with h | h | ⟨_, ⟨⟩, h⟩
    · cases h
    · cases h
    · obtain ⟨-, _, ⟨⟩, h⟩ := h _ List.mem_cons_self
      revert h
      decide

example :
  (ofOptions (.object [("items", .string " +007\n"), ("page", .null)])).toOption.map
    (fun c => (c.items, c.page)) = some (7, 1)
  := by decide +kernel

end Criteria

end Shortlist
