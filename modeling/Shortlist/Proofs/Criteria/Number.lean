import Mathlib.Algebra.Order.Ring.Int
import Mathlib.Tactic.Use
import Shortlist.Criteria.Options
import Shortlist.Error
import Shortlist.Proofs.Number.Decimal

/-!
# Numbers among the options

A number of 32 bits is read from a tree exactly when the tree stands for an integer in the range
of these numbers that is not below the least one allowed.
-/

namespace Shortlist

/-- The tree stands for the integer: a whole number, or a text that spells it. -/
inductive Json.IsInteger : Json → Int → Prop
  | whole (n : Int) : IsInteger (.number (.whole n)) n
  | text {s : String} {n : Int} (h : Shortlist.Number.SpelledIn s.toList n) :
      IsInteger (.string s) n

namespace Criteria

/-- A tree is read as the integer it stands for. -/
theorem readInteger_eq_ok_iff (path : String) (j : Json) (i : Int64) :
  readInteger path j = .ok i ↔ j.IsInteger i.toInt
  := by
  constructor
  · intro h
    cases j with
    | number n =>
      rw [readInteger] at h
      split at h <;> cases h
      next hn =>
        cases n with
        | whole n =>
          obtain rfl := (Number.toInt64?_eq_some_iff ..).mp hn
          exact .whole _
        | real x => cases hn
    | string s =>
      rw [readInteger] at h
      split at h <;> cases h
      next hn => exact .text ((Number.readInt64?_trim_eq_some_iff ..).mp hn)
    | _ => cases h
  · intro h
    generalize hn : i.toInt = n at h
    subst hn
    cases h with
    | whole => rw [readInteger, Json.Number.toInt64?, Number.toInt64?_toInt]
    | text h => rw [readInteger, (Number.readInt64?_trim_eq_some_iff ..).mpr h]

/-! ### Numbers of 32 bits -/

/-- A number of 32 bits is in the range of the integers that are read. -/
theorem exists_toInt_eq (n : UInt32) :
  ∃ i : Int64, i.toInt = n.toNat
  := by
  have hn := n.toNat_lt
  use Int64.ofInt n.toNat
  apply Int64.toInt_ofInt_of_le
  · omega
  · omega

/-- An integer from zero on is the number of 32 bits with its value, if there is one. -/
theorem toUInt32_eq_ok_iff (path : String) {i : Int64} (nonneg : 0 ≤ i.toInt) (n : UInt32) :
  toUInt32 path i = .ok n ↔ i.toInt = n.toNat
  := by
  have hn := n.toNat_lt
  rw [toUInt32]
  constructor
  · intro h
    split_ifs at h with hlt
    cases h
    rw [UInt32.toNat_ofNat_of_lt']
    · omega
    · omega
  · intro h
    rw [h, if_pos (Int.ofNat_lt.mpr hn), Int.toNat_natCast, UInt32.ofNat_toNat]

/-- A number is read when the tree stands for it and it is not below the least one. -/
theorem readInteger_bind_eq_ok_iff {least : Nat} {refuses : Int64 → Prop} [DecidablePred refuses]
    (h : ∀ i, refuses i ↔ i.toInt < least) (path : String) (e : Error) (j : Json) (n : UInt32) :
  (readInteger path j >>= fun i => if refuses i then .error e else toUInt32 path i) = .ok n
    ↔ j.IsInteger n.toNat ∧ least ≤ n.toNat
  := by
  rw [bind_eq_ok_iff]
  simp only [readInteger_eq_ok_iff]
  constructor
  · rintro ⟨i, hi, hok⟩
    split_ifs at hok with hrefuses
    rw [h, not_lt] at hrefuses
    have hn := (toUInt32_eq_ok_iff path (by omega) n).mp hok
    rw [← hn]
    exact ⟨hi, by omega⟩
  · rintro ⟨hj, hleast⟩
    obtain ⟨i, hi⟩ := exists_toInt_eq n
    have hrefuses : ¬ refuses i := by
      rw [h]
      omega
    use i
    rw [hi, if_neg hrefuses, toUInt32_eq_ok_iff path (by omega)]
    exact ⟨hj, hi⟩

/-- The number of items is the integer the tree stands for. -/
theorem readItems_eq_ok_iff (j : Json) (n : UInt32) :
  readItems j = .ok n ↔ j.IsInteger n.toNat
  := by
  have h (i : Int64) : i < 0 ↔ i.toInt < (0 : Nat) := by
    rw [Int64.lt_iff_toInt_lt, Int64.toInt_zero]
    rfl
  rw [readItems, readInteger_bind_eq_ok_iff h]
  apply and_iff_left (Nat.zero_le _)

/-- The page is the integer the tree stands for, which is not zero. -/
theorem readPage_eq_ok_iff (j : Json) (n : UInt32) :
  readPage j = .ok n ↔ j.IsInteger n.toNat ∧ 1 ≤ n.toNat
  := by
  have h (i : Int64) : i ≤ 0 ↔ i.toInt < (1 : Nat) := by
    rw [Int64.le_iff_toInt_le, Int64.toInt_zero]
    omega
  rw [readPage, readInteger_bind_eq_ok_iff h]

/-- A tree stands for a number of 32 bits when it stands for an integer in their range. -/
theorem exists_isInteger_iff (j : Json) (least : Nat) :
  (∃ n : UInt32, j.IsInteger n.toNat ∧ least ≤ n.toNat)
    ↔ ∃ n, j.IsInteger n ∧ (least : Int) ≤ n ∧ n < 2 ^ 32
  := by
  constructor
  · rintro ⟨n, h, hleast⟩
    have hn := n.toNat_lt
    exact ⟨n.toNat, h, by omega, by omega⟩
  · rintro ⟨n, h, hleast, hhigh⟩
    obtain ⟨m, rfl⟩ : ∃ m : Nat, n = m := ⟨n.toNat, by omega⟩
    have hsize : m < UInt32.size := by
      change m < 2 ^ 32
      omega
    use UInt32.ofNat m
    rw [UInt32.toNat_ofNat_of_lt' hsize]
    exact ⟨h, by omega⟩

end Criteria

end Shortlist
