/-!
# Whole numbers in decimal

`digits` and `signed` write a number with no leading zero and no plus sign.  `readNat?` and
`readSigned?` accept any non-empty run of digits, the latter after an optional sign, so
leading zeros do not change what is read.
-/

namespace Shortlist.Number

/-- The decimal digits of a natural number, most significant first. -/
def digits (n : Nat) : List Char := Nat.toDigits 10 n

/-- The decimal digits of the magnitude, after a minus sign when negative. -/
def signed : Int → List Char
  | .ofNat n => digits n
  | .negSucc n => '-' :: digits (n + 1)

/-- The decimal text of a natural number. -/
def natText (n : Nat) : String := String.ofList (digits n)

/-- The decimal text of an integer. -/
def intText (n : Int) : String := String.ofList (signed n)

/-- The number a run of digits stands for, continuing from `n`. -/
def valueFrom (n : Nat) (cs : List Char) : Nat :=
  cs.foldl (fun n c => 10 * n + (c.toNat - '0'.toNat)) n

/-- The number a non-empty run of decimal digits stands for. -/
def readNat? (cs : List Char) : Option Nat :=
  if !cs.isEmpty && cs.all Char.isDigit then some (valueFrom 0 cs) else none

/-- The number written as digits after an optional sign. -/
def readSigned? : List Char → Option Int
  | '+' :: cs => (readNat? cs).map Int.ofNat
  | '-' :: cs => (readNat? cs).map fun n => -Int.ofNat n
  | cs => (readNat? cs).map Int.ofNat

/-- The 64-bit signed integer equal to a number in its range. -/
def toInt64? (n : Int) : Option Int64 :=
  if Int64.minValue.toInt ≤ n ∧ n ≤ Int64.maxValue.toInt then some (Int64.ofInt n) else none

/-- The 64-bit signed integer written as digits after an optional sign. -/
def readInt64? (cs : List Char) : Option Int64 :=
  (readSigned? cs).bind toInt64?

theorem toInt_of_toInt64? {n : Int} {i : Int64} (h : toInt64? n = some i) :
  i.toInt = n
  := by
  simp only [toInt64?, Option.ite_none_right_eq_some, Option.some.injEq] at h
  obtain ⟨⟨lo, hi⟩, rfl⟩ := h
  rw [Int64.toInt_minValue] at lo
  rw [Int64.toInt_maxValue] at hi
  exact Int64.toInt_ofInt_of_le lo (by omega)

theorem toInt64?_toInt (i : Int64) :
  toInt64? i.toInt = some i
  := by
  rw [toInt64?, if_pos ⟨i.minValue_le_toInt, i.toInt_le⟩, Int64.ofInt_toInt]

end Shortlist.Number
