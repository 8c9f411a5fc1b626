/-!
# Doubles as exact numbers

A finite double is `m · 2^q` for a natural `m` below `2^53` and an exponent `q ≥ -1074`.
`Binary.ofFloat` reads `m` and `q` off its bits, and `nearest` goes the other way: it takes
the double nearest to a quotient of naturals, a tie going to the even significand.
-/

namespace Shortlist.Number

/-- The number `significand · 2^exponent`. -/
structure Binary where
  significand : Nat
  exponent : Int

/-- The least exponent of a double. -/
def minExponent : Int := -1074

/-- The number of values of the fraction field of a double, `2^52`. -/
def fractionSize : Nat := 0x10000000000000

/-- The bits of positive infinity. -/
def infinityBits : Nat := 2047 * fractionSize

/-- The fraction field of a double. -/
def fractionField (x : Float) : Nat := x.toBits.toNat % fractionSize

/-- The exponent field of a double. -/
def exponentField (x : Float) : Nat := x.toBits.toNat / fractionSize % 2048

/-- Whether the sign bit of a double is set. -/
def isNegative (x : Float) : Bool := 2048 * fractionSize ≤ x.toBits.toNat

/-- Whether a double is a number other than the infinities. -/
def isFinite (x : Float) : Bool := exponentField x != 2047

/-- Whether a double is no number. -/
def isNotANumber (x : Float) : Bool := exponentField x == 2047 && fractionField x != 0

/-- The magnitude of a finite double. -/
def Binary.ofFloat (x : Float) : Binary :=
  if exponentField x = 0 then ⟨fractionField x, minExponent⟩
  else ⟨fractionSize + fractionField x, (exponentField x : Int) + minExponent - 1⟩

/-- The natural number nearest to a quotient, a half going to the even neighbour. -/
def roundDiv (num den : Nat) : Nat :=
  let q := num / den
  if 2 * (num % den) < den then q
  else if den < 2 * (num % den) then q + 1
  else q + q % 2

/-- Numerator and denominator of `num / den / 2^e`. -/
def shifted (num den : Nat) (e : Int) : Nat × Nat :=
  (num <<< (-e).toNat, den <<< e.toNat)

/-- The exponent at which `num / den` has 53 binary digits, and not less than the least
exponent of a double. -/
def exponentOf (num den : Nat) : Int :=
  let e := max ((num.log2 : Int) - (den.log2 : Int) - 53) minExponent
  if (shifted num den e).1 / (shifted num den e).2 < 2 * fractionSize then e else e + 1

/-- The bits of the double nearest to `num / den`, infinity when that is too large.  A
significand rounded up to `2^53` carries into the exponent. -/
def nearestBits (num den : Nat) : Nat :=
  let e := exponentOf num den
  let m := roundDiv (shifted num den e).1 (shifted num den e).2
  min infinityBits (m + (e - minExponent).toNat * fractionSize)

/-- The double nearest to `num / den`. -/
def nearest (num den : Nat) : Float :=
  if num = 0 then 0 else Float.ofBits (nearestBits num den).toUInt64

/-- The double nearest to `coefficient · 10^exponent`.  Beyond 310 digits before the point
the answer is infinity, and beyond 330 zeros after it the answer is zero. -/
def nearestDecimal (coefficient : Nat) (exponent : Int) : Float :=
  let size : Int := (Nat.toDigits 10 coefficient).length + exponent
  if coefficient = 0 ∨ size < -330 then 0
  else if 310 < size then Float.ofBits infinityBits.toUInt64
  else nearest (coefficient * Nat.pow 10 exponent.toNat) (Nat.pow 10 (-exponent).toNat)

end Shortlist.Number
