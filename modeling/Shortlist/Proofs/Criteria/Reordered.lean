import Shortlist.Proofs.Criteria.Grammar
import Shortlist.Proofs.Json.Reordered

/-!
# Criteria from reordered options

Options that differ only in the order of the members of objects are read alike: when one tree
is read as criteria so is the other, and nothing but the order of the filters can be different.
-/

namespace Shortlist

/-- An operand does not depend on the order of members. -/
theorem Operand.idOf?_eq {members members' : List (String × Json)}
    (h : Json.Reordered (.object members) (.object members')) :
  idOf? members = idOf? members'
  := by
  have hid := h.get?_rel "id"
  rw [idOf?, idOf?]
  generalize Keyed.get? "id" members = o at hid
  generalize Keyed.get? "id" members' = o' at hid
  cases hid with
  | none => rfl
  | some h => cases h <;> rfl

mutual

/-- Reordered trees are read as the same operand. -/
theorem Json.IsOperand.reordered {j j' : Json} {v : Operand} (hv : j.IsOperand v)
    (h : j.Reordered j') :
  j'.IsOperand v
  := by
  cases h with
  | null => exact hv
  | bool b => exact hv
  | number n => exact hv
  | string s => exact hv
  | array h =>
    cases hv with
    | list hvs => exact .list (Json.isOperands_reordered hvs h)
  | object distinct hs perm =>
    cases hv with
    | entity hid =>
      rw [Operand.idOf?_eq (.object distinct hs perm)] at hid
      exact .entity hid

/-- The items of an array, each reordered, are read as the same operands. -/
theorem Json.isOperands_reordered {js js' : List Json} {vs : List Operand}
    (hvs : List.Forall₂ Json.IsOperand js vs) (h : Json.ItemsReordered js js') :
  List.Forall₂ Json.IsOperand js' vs
  := by
  cases h with
  | nil => exact hvs
  | cons h hs =>
    cases hvs with
    | cons hv hvs => exact .cons (hv.reordered h) (Json.isOperands_reordered hvs hs)

end

namespace Criteria

/-- A reader that reads of a reordered tree something related to what it reads of the tree. -/
def Respects {α : Type} (R : α → α → Prop) (read : Json → Except Error α) : Prop :=
  ∀ {j j' : Json} {a : α}, j.Reordered j' → read j = .ok a → ∃ a', read j' = .ok a' ∧ R a a'

/-! ### Texts, numbers and truth values -/

/-- A reader that refuses arrays and objects does not see any order of members. -/
theorem respects_of_scalar {α : Type} {read : Json → Except Error α}
    (array : ∀ items a, read (.array items) ≠ .ok a)
    (object : ∀ members a, read (.object members) ≠ .ok a) :
  Respects Eq read
  := by
  intro j j' a h ha
  cases h with
  | array _ => cases array _ _ ha
  | object _ _ _ => cases object _ _ ha
  | _ => exact ⟨a, ha, rfl⟩

/-- The number of items is read of a tree without members. -/
theorem readItems_respects :
  Respects Eq readItems
  := by apply respects_of_scalar <;> simp [readItems, readInteger, bind, Except.bind]

theorem readPage_respects :
  Respects Eq readPage
  := by apply respects_of_scalar <;> simp [readPage, readInteger, bind, Except.bind]

/-- The grouping is read of a tree without members. -/
theorem readGrouping_respects :
  Respects Eq readGrouping
  := by apply respects_of_scalar <;> simp [readGrouping, mistyped]

theorem readSkipNull_respects :
  Respects Eq readSkipNull
  := by apply respects_of_scalar <;> simp [readSkipNull, mistyped]

/-! ### The order -/

/-- A direction is read of a tree without members. -/
theorem IsDirection.reordered {o o' : Option Json} {d : Direction} (hd : IsDirection o d)
    (h : Option.Rel Json.Reordered o o') :
  IsDirection o' d
  := by
  cases hd with
  | absent =>
    cases h
    exact .absent
  | null =>
    cases h with
    | some h =>
      cases h
      exact .null
  | token hs =>
    cases h with
    | some h =>
      cases h
      exact .token hs

/-- The members of an order term are looked up by name, so their order does not matter. -/
theorem IsOrderTerm.reordered {j j' : Json} {t : OrderTerm} (ht : IsOrderTerm j t)
    (h : j.Reordered j') :
  IsOrderTerm j' t
  := by
  cases ht with
  | mk known field direction =>
    cases h with
    | @object _ _ members' distinct hs perm =>
      have h := Json.Reordered.object distinct hs perm
      have hby := h.get?_rel "by"
      rw [field] at hby
      apply IsOrderTerm.mk
      · intro name hname
        apply known name (h.keys_perm.mem_iff.mpr hname)
      · generalize Keyed.get? "by" members' = o at hby
        cases hby with
        | some h =>
          cases h
          rfl
      · apply direction.reordered (h.get?_rel "dir")

/-- The terms of the order stay where they are, whatever the order of their members. -/
theorem readOrder_respects :
  Respects Eq readOrder
  := by
  intro j j' ts h hts
  obtain ⟨items, rfl, hterms⟩ := (readOrder_eq_ok_iff ..).mp hts
  cases h with
  | @array _ items' h =>
    have hterms' : List.Forall₂ IsOrderTerm items' ts := by
      apply h.forall₂ _ hterms
      intro _ _ _ ht h
      exact ht.reordered h
    exact ⟨ts, (readOrder_eq_ok_iff ..).mpr ⟨items', rfl, hterms'⟩, rfl⟩

/-! ### Filters and operators -/

/-- A filter does not depend on the order of members in its operand. -/
theorem IsFilter.reordered {name : String} {j j' : Json} {f : Filter}
    (hf : IsFilter (name, j) f) (h : j.Reordered j') :
  IsFilter (name, j') f
  := ⟨hf.name, hf.operand.reordered h⟩

/-- Filters come in the order of their members, so they are read in another order. -/
theorem readFilters_respects :
  Respects List.Perm readFilters
  := by
  intro j j' fs h hfs
  rcases (readFilters_eq_ok_iff ..).mp hfs with ⟨members, rfl, hmembers⟩ | ⟨rfl, rfl⟩
  · cases h with
    | @object _ _ members' distinct hs perm =>
      have h := Json.Reordered.object distinct hs perm
      obtain ⟨fs', hfs', hperm⟩ :=
        h.exists_forall₂_perm (fun _ _ _ _ => IsFilter.reordered) hmembers
      exact ⟨fs', (readFilters_eq_ok_iff ..).mpr (.inl ⟨members', rfl, hfs'⟩), hperm⟩
  · cases h with
    | array h =>
      cases h
      exact ⟨[], hfs, .nil⟩

theorem IsOperatorEntry.reordered {name : String} {j j' : Json} {e : String × Operator}
    (he : IsOperatorEntry (name, j) e) (h : j.Reordered j') :
  IsOperatorEntry (name, j') e
  := by
  obtain ⟨hname, valid, tag, rfl, htag⟩ := he
  cases h
  exact ⟨hname, valid, tag, rfl, htag⟩

/-- The entries of a table of operators have the names of the members they are read from. -/
theorem keys_eq_of_isOperatorEntry {members : List (String × Json)}
    {ops : List (String × Operator)} (h : List.Forall₂ IsOperatorEntry members ops) :
  Keyed.keys members = Keyed.keys ops
  := by
  induction h with
  | nil => rfl
  | cons h _ ih => exact congrArg₂ List.cons h.name ih

/-- A table of operators does not depend on the order of its members. -/
theorem readOperators_respects :
  Respects Eq readOperators
  := by
  intro j j' t h ht
  rcases (readOperators_eq_ok_iff ..).mp ht with ⟨members, ops, rfl, hops, rfl⟩ | ⟨rfl, rfl⟩
  · cases h with
    | @object _ _ members' distinct hs perm =>
      have h := Json.Reordered.object distinct hs perm
      obtain ⟨ops', hops', hperm⟩ :=
        h.exists_forall₂_perm (fun _ _ _ _ => IsOperatorEntry.reordered) hops
      have distinct' : (Keyed.keys ops.reverse).Nodup := by
        rw [keys_eq_of_isOperatorEntry hops] at distinct
        apply (ops.reverse_perm.symm.map _).nodup distinct
      -- the tables are sorted, so it is enough that they have the same lookups
      have htable : Operators.empty.insertAll ops = .insertAll .empty ops' := by
        apply Operators.insertAll_empty_eq
        apply Keyed.get?_of_perm distinct'
        apply (ops.reverse_perm.trans hperm).trans ops'.reverse_perm.symm
      exact ⟨_, (readOperators_eq_ok_iff ..).mpr (.inl ⟨members', ops', rfl, hops', rfl⟩), htable⟩
  · cases h with
    | array h =>
      cases h
      exact ⟨.empty, ht, rfl⟩

/-! ### All options -/

/-- The criteria are the same but for the order of the filters. -/
structure Reordered (c c' : Criteria) : Prop where
  filters : c.filters.Perm c'.filters
  rest : c' = { c with filters := c'.filters }

/-- Reordered options hold reordered trees under every name. -/
theorem option?_rel {members members' : List (String × Json)}
    (h : Json.Reordered (.object members) (.object members')) (name : String) :
  Option.Rel Json.Reordered (option? members name) (option? members' name)
  := by
  have hget := h.get?_rel name
  rw [option?, option?]
  generalize Keyed.get? name members = o at hget
  generalize Keyed.get? name members' = o' at hget
  cases hget with
  | none => exact .none
  | some h =>
    rw [Option.filter_some, Option.filter_some, h.isNull_eq]
    split
    · exact .some h
    · exact .none

/-- What a reader respects is respected when it is used on an option that may be absent. -/
theorem orStandard_respects {α : Type} {R : α → α → Prop} (refl : ∀ a, R a a)
    {read : Json → Except Error α} (respects : Respects R read) {standard a : α}
    {o o' : Option Json} (h : Option.Rel Json.Reordered o o')
    (ha : orStandard standard read o = .ok a) :
  ∃ a', orStandard standard read o' = .ok a' ∧ R a a'
  := by
  cases h with
  | none => exact ⟨a, ha, refl a⟩
  | some h => exact respects h ha

/-- Reordered options are read as criteria that are the same but for the order of the filters. -/
theorem ofMembers_reordered {members members' : List (String × Json)} {c : Criteria}
    (h : Json.Reordered (.object members) (.object members')) (hc : ofMembers members = .ok c) :
  ∃ c', ofMembers members' = .ok c' ∧ c.Reordered c'
  := by
  obtain ⟨known, items, page, order, filters, operators, grouping, skipNull⟩ :=
    (ofMembers_eq_ok_iff ..).mp hc
  have hrel := option?_rel h
  obtain ⟨_, items', rfl⟩ := orStandard_respects .refl readItems_respects (hrel _) items
  obtain ⟨_, page', rfl⟩ := orStandard_respects .refl readPage_respects (hrel _) page
  obtain ⟨_, order', rfl⟩ := orStandard_respects .refl readOrder_respects (hrel _) order
  obtain ⟨fs, filters', hfs⟩ := orStandard_respects .refl readFilters_respects (hrel _) filters
  obtain ⟨_, operators', rfl⟩ := orStandard_respects .refl readOperators_respects (hrel _) operators
  obtain ⟨_, grouping', rfl⟩ := orStandard_respects .refl readGrouping_respects (hrel _) grouping
  obtain ⟨_, skipNull', rfl⟩ := orStandard_respects .refl readSkipNull_respects (hrel _) skipNull
  have known' : ∀ name ∈ Keyed.keys members', name ∈ optionNames := by
    intro name hname
    apply known name (h.keys_perm.mem_iff.mpr hname)
  use { c with filters := fs }
  constructor
  · apply (ofMembers_eq_ok_iff ..).mpr
    exact ⟨known', items', page', order', filters', operators', grouping', skipNull'⟩
  · exact ⟨hfs, rfl⟩

/-- Reordered options are read as the same criteria, but for the order of the filters. -/
theorem ofOptions_reordered {r r' : Json} {c : Criteria} (h : r.Reordered r')
    (hc : ofOptions r = .ok c) :
  ∃ c', ofOptions r' = .ok c' ∧ c.Reordered c'
  := by
  cases h with
  | null => exact ⟨c, hc, .refl _, rfl⟩
  | object distinct hs perm => exact ofMembers_reordered (.object distinct hs perm) hc
  | _ => cases hc

end Criteria

end Shortlist
