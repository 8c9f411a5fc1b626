import Mathlib.Data.List.Perm.Basic
import Shortlist.Json.Basic
import Shortlist.Proofs.Keyed.Order

/-!
# Trees with reordered members

Two trees are reordered into each other when they differ only in the order of the members of
their objects, at any depth.  The members of one object have distinct names, as they do in every
tree of a document, and so looking up a name in reordered objects gives reordered trees.
-/

namespace Shortlist.Json

mutual

/-- The trees differ only in the order of the members of objects, and the members of one
object have distinct names. -/
inductive Reordered : Json → Json → Prop
  | null : Reordered .null .null
  | bool (b : Bool) : Reordered (.bool b) (.bool b)
  | number (n : Number) : Reordered (.number n) (.number n)
  | string (s : String) : Reordered (.string s) (.string s)
  | array {items items' : List Json} (h : ItemsReordered items items') :
      Reordered (.array items) (.array items')
  | object {members ms members' : List (String × Json)}
      (distinct : (Keyed.keys members).Nodup) (h : ValuesReordered members ms)
      (perm : ms.Perm members') : Reordered (.object members) (.object members')

/-- The trees of two lists are reordered, each in its place. -/
inductive ItemsReordered : List Json → List Json → Prop
  | nil : ItemsReordered [] []
  | cons {j j' : Json} {js js' : List Json} (h : Reordered j j') (hs : ItemsReordered js js') :
      ItemsReordered (j :: js) (j' :: js')

/-- The values of two lists of members are reordered, each in its place. -/
inductive ValuesReordered : List (String × Json) → List (String × Json) → Prop
  | nil : ValuesReordered [] []
  | cons {j j' : Json} {ms ms' : List (String × Json)} (name : String) (h : Reordered j j')
      (hs : ValuesReordered ms ms') : ValuesReordered ((name, j) :: ms) ((name, j') :: ms')

end

theorem valuesReordered_iff_forall₂ (ms ms' : List (String × Json)) :
  ValuesReordered ms ms' ↔ List.Forall₂ (fun m m' => m.1 = m'.1 ∧ m.2.Reordered m'.2) ms ms'
  := by
  constructor
  · intro h
    induction ms generalizing ms' with
    | nil =>
      cases h
      exact .nil
    | cons m ms ih =>
      cases h with
      | cons name h hs => exact .cons ⟨rfl, h⟩ (ih _ hs)
  · intro h
    induction h with
    | nil => exact .nil
    | @cons m m' _ _ h _ ih =>
      obtain ⟨name, j⟩ := m
      obtain ⟨name', j'⟩ := m'
      obtain ⟨rfl, h⟩ := h
      exact .cons name h ih

/-- Members with reordered values have the same names in the same order. -/
theorem ValuesReordered.keys_eq {ms ms' : List (String × Json)} (h : ValuesReordered ms ms') :
  Keyed.keys ms = Keyed.keys ms'
  := by
  rw [valuesReordered_iff_forall₂] at h
  induction h with
  | nil => rfl
  | cons h _ ih => exact congrArg₂ List.cons h.1 ih

/-- Looking up a name among members with reordered values gives reordered trees. -/
theorem ValuesReordered.get?_rel {ms ms' : List (String × Json)} (h : ValuesReordered ms ms')
    (name : String) :
  Option.Rel Reordered (Keyed.get? name ms) (Keyed.get? name ms')
  := by
  rw [valuesReordered_iff_forall₂] at h
  induction h with
  | nil => exact .none
  | @cons m m' _ _ h _ ih =>
    obtain ⟨other, j⟩ := m
    obtain ⟨other', j'⟩ := m'
    obtain ⟨rfl, h⟩ := h
    rw [Keyed.get?, Keyed.get?]
    split
    · exact .some h
    · exact ih

mutual

/-- Reordering can be undone. -/
theorem Reordered.symm {j j' : Json} (h : j.Reordered j') :
  j'.Reordered j
  := by
  cases h with
  | null => exact .null
  | bool b => exact .bool b
  | number n => exact .number n
  | string s => exact .string s
  | array h => exact .array h.symm
  | object distinct h perm =>
    -- members are permuted after their values were reordered, so here before, and the two
    -- have to change places
    obtain ⟨ms', hms', perm'⟩ :=
      List.perm_comp_forall₂ perm.symm ((valuesReordered_iff_forall₂ ..).mp h.symm)
    rw [h.keys_eq] at distinct
    exact .object ((perm.map _).nodup distinct) ((valuesReordered_iff_forall₂ ..).mpr hms') perm'

theorem ItemsReordered.symm {js js' : List Json} (h : ItemsReordered js js') :
  ItemsReordered js' js
  := by
  cases h with
  | nil => exact .nil
  | cons h hs => exact .cons h.symm hs.symm

theorem ValuesReordered.symm {ms ms' : List (String × Json)} (h : ValuesReordered ms ms') :
  ValuesReordered ms' ms
  := by
  cases h with
  | nil => exact .nil
  | cons name h hs => exact .cons name h.symm hs.symm

end

/-! ### Objects -/

/-- The names of reordered objects are the same up to their order. -/
theorem Reordered.keys_perm {members members' : List (String × Json)}
    (h : Reordered (.object members) (.object members')) :
  (Keyed.keys members).Perm (Keyed.keys members')
  := by
  cases h with
  | object distinct h perm =>
    rw [h.keys_eq]
    exact perm.map _

/-- A name is looked up in reordered objects alike. -/
theorem Reordered.get?_rel {members members' : List (String × Json)}
    (h : Reordered (.object members) (.object members')) (name : String) :
  Option.Rel Reordered (Keyed.get? name members) (Keyed.get? name members')
  := by
  cases h with
  | object distinct h perm =>
    rw [h.keys_eq] at distinct
    rw [← Keyed.get?_of_perm distinct perm]
    exact h.get?_rel name

/-! ### What trees are read as -/

/-- Lists of trees are read item by item, so reordered items are read alike where each is. -/
theorem ItemsReordered.forall₂ {β : Type} {Reads : Json → β → Prop}
    (respects : ∀ ⦃j j' : Json⦄ ⦃b : β⦄, Reads j b → j.Reordered j' → Reads j' b)
    {js js' : List Json} {bs : List β} (h : ItemsReordered js js')
    (hbs : List.Forall₂ Reads js bs) :
  List.Forall₂ Reads js' bs
  := by
  induction hbs generalizing js' with
  | nil =>
    cases h
    exact .nil
  | cons hb _ ih =>
    cases h with
    | cons h hs => exact .cons (respects hb h) (ih hs)

/-- Objects are read member by member, so of reordered objects the same is read in another
order. -/
theorem Reordered.exists_forall₂_perm {β : Type} {Reads : String × Json → β → Prop}
    (respects : ∀ ⦃name : String⦄ ⦃j j' : Json⦄ ⦃b : β⦄,
      Reads (name, j) b → j.Reordered j' → Reads (name, j') b)
    {members members' : List (String × Json)} {bs : List β}
    (h : Reordered (.object members) (.object members')) (hbs : List.Forall₂ Reads members bs) :
  ∃ bs', List.Forall₂ Reads members' bs' ∧ bs.Perm bs'
  := by
  cases h with
  | @object _ ms _ distinct h perm =>
    have hms : List.Forall₂ Reads ms bs := by
      clear distinct perm
      induction hbs generalizing ms with
      | nil =>
        cases h
        exact .nil
      | cons hb _ ih =>
        cases h with
        | cons name h hs => exact .cons (respects hb h) (ih hs)
    obtain ⟨bs', hbs', hperm⟩ := List.perm_comp_forall₂ perm.symm hms
    exact ⟨bs', hbs', hperm.symm⟩

/-- Null is reordered into null only. -/
theorem Reordered.isNull_eq {j j' : Json} (h : j.Reordered j') :
  j.isNull = j'.isNull
  := by cases h <;> rfl

end Shortlist.Json
