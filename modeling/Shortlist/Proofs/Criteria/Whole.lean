import Shortlist.Criteria.Document
import Shortlist.Proofs.Criteria.Accepted

/-!
# Whole numbers among the filters

A place in an operand is given by the indices of the lists that lead to it.  Where the tree of a
filter holds a whole number, as itself or as the id of an entity, the operand holds the integer
equal to it when it fits 64 bits with a sign.  A number that does not fit is not refused: the
operand holds the double nearest to it, which may be another number.
-/

namespace Shortlist

/-- The operand found in an operand by going into lists at the given indices. -/
def Operand.at? : Operand → List Nat → Option Operand
  | v, [] => some v
  | .list items, i :: path => items[i]?.bind (·.at? path)
  | _, _ :: _ => none

/-- The tree is a whole number, or an entity that has it for its id. -/
inductive Json.IsWhole (n : Int) : Json → Prop
  | number : IsWhole n (.number (.whole n))
  | entity {members : List (String × Json)}
      (id : Keyed.get? "id" members = some (.number (.whole n))) : IsWhole n (.object members)

/-- The value holds a whole number: the integer equal to it when it fits 64 bits with a sign, the
double nearest to it otherwise. -/
inductive Value.HoldsWhole (n : Int) : Value → Prop
  | int {i : Int64} (equal : i.toInt = n) : HoldsWhole n (.int i)
  | float (beyond : n < -2 ^ 63 ∨ 2 ^ 63 ≤ n) : HoldsWhole n (.float (Json.Number.whole n).toFloat)

/-- The operand holds the whole number of a tree as the tree does, as itself or as the id of an
entity. -/
inductive Operand.HoldsWhole (n : Int) : Json → Operand → Prop
  | int {i : Int64} (equal : i.toInt = n) : HoldsWhole n (.number (.whole n)) (.int i)
  | float (beyond : n < -2 ^ 63 ∨ 2 ^ 63 ≤ n) :
      HoldsWhole n (.number (.whole n)) (.float (Json.Number.whole n).toFloat)
  | entity {members : List (String × Json)} {id : Value} (holds : id.HoldsWhole n) :
      HoldsWhole n (.object members) (.entity id)

/-- A number that is no integer of 64 bits is beyond their range. -/
theorem Json.Number.toInt64?_whole_eq_none_iff (n : Int) :
  (Number.whole n).toInt64? = none ↔ n < -2 ^ 63 ∨ 2 ^ 63 ≤ n
  := by
  rw [toInt64?, Shortlist.Number.toInt64?, Int64.toInt_minValue, Int64.toInt_maxValue]
  split
  · simp; omega
  · simp; omega

/-- What is found in a tree is read as what is found in the operand that the tree is read as. -/
theorem Json.IsOperand.at? {j k : Json} {v : Operand} (h : j.IsOperand v) {path : List Nat}
    (hk : j.at? path = some k) :
  ∃ w, v.at? path = some w ∧ k.IsOperand w
  := by
  induction path generalizing j v with
  | nil =>
    cases hk
    exact ⟨v, rfl, h⟩
  | cons i path ih =>
    cases h with
    | @list items vs h =>
      obtain ⟨j, hj, hk⟩ := Option.bind_eq_some_iff.mp hk
      obtain ⟨w, hw, hjw⟩ := exists_getElem?_of_forall₂ h hj
      obtain ⟨u, hu, hku⟩ := ih hjw hk
      exact ⟨u, Option.bind_eq_some_iff.mpr ⟨w, hw, hu⟩, hku⟩
    | _ => cases hk

theorem Operand.holdsWhole_numberValue (n : Int) :
  (numberValue (.whole n)).HoldsWhole n
  := by
  rw [numberValue]
  cases h : (Json.Number.whole n).toInt64? with
  | some i => exact .int (Number.toInt_of_toInt64? h)
  | none => exact .float ((Json.Number.toInt64?_whole_eq_none_iff n).mp h)

/-- The operand a whole number is read as holds it. -/
theorem Json.IsOperand.holdsWhole {k : Json} {w : Operand} (h : k.IsOperand w) {n : Int}
    (whole : k.IsWhole n) :
  w.HoldsWhole n k
  := by
  cases whole with
  | number =>
    cases h with
    | int h => exact .int (Number.toInt_of_toInt64? h)
    | float h => exact .float ((Number.toInt64?_whole_eq_none_iff n).mp h)
  | entity member =>
    cases h with
    | entity h =>
      rw [Operand.idOf?, member] at h
      cases h
      exact .entity (Operand.holdsWhole_numberValue n)

namespace Criteria

/-- Filters that are accepted hold every whole number at the place where their trees do: as the
integer equal to it when it fits 64 bits with a sign, and otherwise as the double nearest to
it. -/
theorem holdsWhole_of_ofOptions_eq_ok {members ms : List (String × Json)} {c : Criteria}
    (h : ofOptions (.object members) = .ok c)
    (hfilters : Keyed.get? "filters" members = some (.object ms)) :
  List.Forall₂
    (fun m f => m.1 = f.field.text ∧ ∀ path k n, m.2.at? path = some k → k.IsWhole n →
      ∃ w, f.operand.at? path = some w ∧ w.HoldsWhole n k)
    ms c.filters
  := by
  obtain ⟨-, -, -, -, hread, -⟩ := (ofMembers_eq_ok_iff members c).mp h
  rw [option?, hfilters] at hread
  have hms : List.Forall₂ IsFilter ms c.filters := (readFilterMembers_eq_ok_iff ms _).mp hread
  apply hms.imp
  rintro m f ⟨hname, hoperand⟩
  use hname
  intro path k n hk whole
  obtain ⟨w, hw, hkw⟩ := hoperand.at? hk
  exact ⟨w, hw, hkw.holdsWhole whole⟩

/-- Ids of posts at some depth, the last of which does not fit 64 bits with a sign, and an author
with an id. -/
theorem holdsWhole_of_ofOptions_eq_ok_posts :
  ∃ (ms : List (String × Json)) (c : Criteria),
    ofOptions (.object [("filters", .object ms)]) = .ok c
    ∧ (∃ m ∈ ms, m.2.at? [1, 0] = some (.number (.whole 9223372036854775808)))
    ∧ List.Forall₂
      (fun m f => m.1 = f.field.text ∧ ∀ path k n, m.2.at? path = some k → k.IsWhole n →
        ∃ w, f.operand.at? path = some w ∧ w.HoldsWhole n k)
      ms c.filters
  := by
  let ids : Json := .array [.number (.whole 7), .array [.number (.whole 9223372036854775808)]]
  let author : Json := .object [("name", .string "Ann"), ("id", .number (.whole 3))]
  let ms : List (String × Json) := [("id", ids), ("author", author)]
  obtain ⟨c, hc, -⟩ : ∃ c, ofOptions (.object [("filters", .object ms)]) = .ok c
      ∧ c.filters.length = 2 :=
    exists_eq_ok_of_map_toOption (by decide +kernel)
  refine ⟨ms, c, hc, ⟨_, List.mem_cons_self, rfl⟩, ?_⟩
  apply holdsWhole_of_ofOptions_eq_ok hc rfl

/-- The ids `2^64 - 1` and `2^64 - 2` are not refused but read as one and the same double. -/
theorem ofOptions_id_beyond :
  ∃ (c d : Criteria) (x : Float),
    ofOptions (.object [("filters", .object [("id", .number (.whole 18446744073709551615))])])
      = .ok c
    ∧ ofOptions (.object [("filters", .object [("id", .number (.whole 18446744073709551614))])])
      = .ok d
    ∧ c.filter? "id" = some (.float x) ∧ d.filter? "id" = some (.float x)
  := by
  have hsame : Number.nearest 18446744073709551614 1 = Number.nearest 18446744073709551615 1 := by
    have hbits : Number.nearestBits 18446744073709551614 1
        = Number.nearestBits 18446744073709551615 1 := by decide +kernel
    simp only [Number.nearest, hbits]
    rfl
  refine ⟨_, _, Number.nearest 18446744073709551615 1, rfl, rfl, rfl, ?_⟩
  rw [← hsame]
  rfl

end Criteria

end Shortlist
