import Shortlist.Number.Shortest

/-!
# Layouts of a double

A `Layout` fixes how the shortest digits of a double are written: which magnitudes are
written without an exponent, whether a whole number keeps its point, and how infinities and
the number that is no number are spelled.  `Layout.plain` never writes an exponent;
`Layout.data` is the form of data documents.
-/

namespace Shortlist.Number

/-- The choices left open by the digits of a double. -/
structure Layout where
  tie : Tie
  keepPoint : Bool
  isPositional : Int → Bool
  notANumber : String
  infinity : String
  negativeInfinity : String

/-- Digits with the decimal point after the first `n`, filled up with zeros. -/
def positional (keepPoint : Bool) (ds : List Char) (n : Int) : List Char :=
  if n ≤ 0 then '0' :: '.' :: (List.replicate (-n).toNat '0' ++ ds)
  else if ds.length ≤ n.toNat then
    ds ++ List.replicate (n.toNat - ds.length) '0' ++ (if keepPoint then ['.', '0'] else [])
  else ds.take n.toNat ++ '.' :: ds.drop n.toNat

/-- One digit before the point, and the power of ten with its sign. -/
def scientific (ds : List Char) (n : Int) : List Char :=
  let exponent := (if n < 1 then '-' else '+') :: Nat.toDigits 10 (n - 1).natAbs
  match ds with
  | [d] => d :: 'e' :: exponent
  | d :: ds => d :: '.' :: (ds ++ 'e' :: exponent)
  | [] => 'e' :: exponent

namespace Layout

/-- Digits and place of the point of a positive decimal, without trailing zeros. -/
def significantDigits (d : Decimal) : List Char × Int :=
  let ds := Nat.toDigits 10 d.coefficient
  ((ds.reverse.dropWhile (· == '0')).reverse, ds.length + d.exponent)

/-- The magnitude of a finite double. -/
def writeMagnitude (l : Layout) (b : Binary) : List Char :=
  if b.significand = 0 then positional l.keepPoint ['0'] 1
  else
    let (ds, n) := significantDigits (b.shortest l.tie)
    if l.isPositional n then positional l.keepPoint ds n else scientific ds n

/-- The text of a double. -/
def write (l : Layout) (x : Float) : String :=
  if isFinite x then
    let magnitude := l.writeMagnitude (Binary.ofFloat x)
    String.ofList (if isNegative x then '-' :: magnitude else magnitude)
  else if isNotANumber x then l.notANumber
  else if isNegative x then l.negativeInfinity
  else l.infinity

/-- Every digit is written out, a tie between two shortest decimals goes up, and a whole
number has no point. -/
def plain : Layout where
  tie := .up
  keepPoint := false
  isPositional _ := true
  notANumber := "NaN"
  infinity := "inf"
  negativeInfinity := "-inf"

/-- Numbers from `10^-5` up to `10^16` are written without an exponent and keep their point,
and a tie goes to the even digit. -/
def data : Layout where
  tie := .even
  keepPoint := true
  isPositional n := -5 < n && n ≤ 16
  notANumber := "null"
  infinity := "null"
  negativeInfinity := "null"

end Layout

/-- The text of a double in statements. -/
def floatText (x : Float) : String := Layout.plain.write x

end Shortlist.Number
