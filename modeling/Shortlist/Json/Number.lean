import Shortlist.Json.Basic
import Shortlist.Number.Numeral

/-!
# Numbers of a JSON document

A numeral without point and power is whole when it fits 64 bits: up to `2^64 - 1` without a
sign, from `-2^63` with one.  Any other numeral is a double, and so is `-0`.  The double is
found from at most 64 bits of digits: the leading digits that fit are converted, and the
result is scaled by a power of ten, in steps of `10^308` when the power is smaller than any
double's.  A number too large for a double is refused.
-/

namespace Shortlist.Json

open Shortlist.Number (Numeral)

/-- Appends decimal digits to a number while the result fits 64 bits, and returns the digits
that are left. -/
def gather (n : Nat) : List Char → Nat × List Char
  | [] => (n, [])
  | c :: cs =>
    let next := 10 * n + (c.toNat - '0'.toNat)
    if next < UInt64.size then gather next cs else (n, c :: cs)

/-- A double times a power of ten, refused when it overflows. -/
def scale? (x : Float) (e : Int) : Option Float :=
  if e.natAbs ≤ 308 then
    let power := Number.nearestDecimal 1 e.natAbs
    if 0 ≤ e then
      let y := x * power
      if Shortlist.Number.isFinite y then some y else none
    else some (x / power)
  else if x == 0 then some x
  else if 0 ≤ e then none
  else scale? (x / Number.nearestDecimal 1 308) (e + 308)
termination_by e.natAbs

/-- The double spelled by a numeral. -/
def Number.real? (n : Numeral) : Option Float :=
  let fraction := n.fraction.getD []
  let (leading, wholeLeft) := gather 0 n.whole
  let (significand, fractionLeft) := gather leading fraction
  let shift : Int := (wholeLeft.length : Int) - (fraction.length - fractionLeft.length : Nat)
  let x := scale? (Number.nearest significand 1) (n.powerValue + shift)
  if n.isNegative then x.map (- ·) else x

/-- The whole number spelled by a numeral, when it has no point and no power and fits. -/
def Number.whole? (n : Numeral) : Option Int :=
  let value := Number.valueFrom 0 n.whole
  if !n.isWhole then none
  else if n.isNegative then
    if value = 0 ∨ -(value : Int) < Int64.minValue.toInt then none else some (-value)
  else if value < UInt64.size then some value
  else none

/-- The number a text starts with, and the rest of the text. -/
def Number.read? (cs : List Char) : Option (Number × List Char) :=
  let (n, rest) := Numeral.scan cs
  if n.sign = some '+' || !n.hasPlainWhole || !n.hasCompleteTail then none
  else match Number.whole? n with
    | some k => some (.whole k, rest)
    | none => (Number.real? n).map fun x => (.real x, rest)

end Shortlist.Json
