import Shortlist.Number.Double

/-!
# Shortest decimals

`Binary.shortest` is the decimal with the fewest digits among those that read back as a
given double, and of those the one nearest to it.  The numbers that read back form an
interval around `m · 2^q`, whose ends belong to it when `m` is even.  For one digit, two
digits and so on the two neighbours of the double on that decimal grid are tried; if any
number of a grid lies in the interval then so does one of these two.
-/

namespace Shortlist.Number

/-- The number `coefficient · 10^exponent`. -/
structure Decimal where
  coefficient : Nat
  exponent : Int

/-- Which of two decimals is taken when both are equally near. -/
inductive Tie where
  | up
  | even

/-- The coefficient taken of `c` and `c + 1`, when both are equally near. -/
def Tie.choose : Tie → Nat → Nat
  | .up, c => c + 1
  | .even, c => c + c % 2

namespace Binary

/-- A quarter of the spacing `2^q`, as a quotient, in units of `10^k`. -/
def quarter (b : Binary) (k : Int) : Nat × Nat :=
  (Nat.pow 10 (-k).toNat <<< (b.exponent - 2).toNat, Nat.pow 10 k.toNat <<< (2 - b.exponent).toNat)

/-- The quarters of the spacing between a double and the lower end of its interval: two, and
one where the spacing below is half the spacing above. -/
def below (b : Binary) : Nat :=
  if b.significand = fractionSize ∧ minExponent < b.exponent then 1 else 2

/-- Whether `x` lies between two ends, which belong to the interval of an even number. -/
def inside (b : Binary) (low x high : Nat) : Bool :=
  if b.significand % 2 = 0 then low ≤ x && x ≤ high else low < x && x < high

/-- The nearer of the multiples of `10^k` next to a double that lie in its interval. -/
def onGrid (b : Binary) (tie : Tie) (k : Int) : Option Decimal :=
  let (unit, den) := b.quarter k
  let low := (4 * b.significand - b.below) * unit
  let mid := 4 * b.significand * unit
  let high := (4 * b.significand + 2) * unit
  let c := mid / den
  match b.inside low (c * den) high, b.inside low ((c + 1) * den) high with
  | true, true =>
    if 2 * (mid % den) < den then some ⟨c, k⟩
    else if den < 2 * (mid % den) then some ⟨c + 1, k⟩
    else some ⟨tie.choose c, k⟩
  | true, false => some ⟨c, k⟩
  | false, true => some ⟨c + 1, k⟩
  | false, false => none

/-- The least `n` with the double below `10^n`. -/
def magnitude (b : Binary) : Int :=
  let (unit, den) := b.quarter 0
  let num := 4 * b.significand * unit
  if den ≤ num then (Nat.toDigits 10 (num / den)).length
  else 1 - (Nat.toDigits 10 (den / num)).length

/-- The decimal of the fewest digits that reads back as a positive double, and of those the
nearest to it.  Seventeen digits are always enough. -/
def shortest (b : Binary) (tie : Tie) : Decimal :=
  let grid (j : Nat) := b.onGrid tie (b.magnitude - j - 1)
  ((List.range 17).findSome? grid).getD ⟨0, 0⟩

end Binary

end Shortlist.Number
