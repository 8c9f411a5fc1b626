import Shortlist.Number.Double
import Shortlist.Number.Whole

/-!
# Numerals

A numeral is a number as it is spelled: an optional sign, digits, an optional fraction and an
optional power of ten.  `Numeral.scan` takes the longest numeral off a text; which spellings
are allowed is for each format to say.
-/

namespace Shortlist.Number

/-- The parts of a written number, digits as they stand. -/
structure Numeral where
  sign : Option Char
  whole : List Char
  fraction : Option (List Char)
  power : Option (Option Char × List Char)

namespace Numeral

/-- An optional sign and the rest of the text. -/
def scanSign : List Char → Option Char × List Char
  | '+' :: cs => (some '+', cs)
  | '-' :: cs => (some '-', cs)
  | cs => (none, cs)

/-- The digits a text starts with and the rest of the text. -/
def scanDigits (cs : List Char) : List Char × List Char :=
  (cs.takeWhile Char.isDigit, cs.dropWhile Char.isDigit)

/-- The digits after a point, if a point comes next. -/
def scanFraction : List Char → Option (List Char) × List Char
  | '.' :: cs => (some (scanDigits cs).1, (scanDigits cs).2)
  | cs => (none, cs)

/-- The signed digits after an `e`, if one comes next. -/
def scanPower : List Char → Option (Option Char × List Char) × List Char
  | c :: cs =>
    if c = 'e' ∨ c = 'E' then
      let (sign, cs) := scanSign cs
      let (ds, cs) := scanDigits cs
      (some (sign, ds), cs)
    else (none, c :: cs)
  | [] => (none, [])

/-- The longest numeral a text starts with and the rest of the text. -/
def scan (cs : List Char) : Numeral × List Char :=
  let (sign, cs) := scanSign cs
  let (whole, cs) := scanDigits cs
  let (fraction, cs) := scanFraction cs
  let (power, cs) := scanPower cs
  (⟨sign, whole, fraction, power⟩, cs)

/-- Whether the sign is a minus. -/
def isNegative (n : Numeral) : Bool := n.sign == some '-'

/-- Whether the whole part is a single zero or starts with another digit. -/
def hasPlainWhole (n : Numeral) : Bool :=
  match n.whole with
  | [] => false
  | [_] => true
  | d :: _ => d != '0'

/-- Whether a point and a power of ten are followed by digits. -/
def hasCompleteTail (n : Numeral) : Bool :=
  n.fraction.all (!·.isEmpty) && n.power.all (!·.2.isEmpty)

/-- Whether the number is spelled without point and power of ten. -/
def isWhole (n : Numeral) : Bool := n.fraction.isNone && n.power.isNone

/-- The power of ten, zero when none is written. -/
def powerValue (n : Numeral) : Int :=
  match n.power with
  | none => 0
  | some (sign, ds) => if sign = some '-' then -(valueFrom 0 ds : Int) else valueFrom 0 ds

/-- The double nearest to the number. -/
def toFloat (n : Numeral) : Float :=
  let fraction := n.fraction.getD []
  let x := nearestDecimal (valueFrom 0 (n.whole ++ fraction)) (n.powerValue - fraction.length)
  if n.isNegative then -x else x

end Numeral

/-- The double spelled by a text: a numeral with at least one digit, an infinity or the
number that is no number. -/
def readFloat? (s : String) : Option Float :=
  let inf := Float.ofBits infinityBits.toUInt64
  if s = "NaN" then some (inf - inf)
  else if s = "inf" then some inf
  else if s = "-inf" then some (-inf)
  else
    let (n, rest) := Numeral.scan s.toList
    if rest.isEmpty && !(n.whole ++ n.fraction.getD []).isEmpty && n.power.all (!·.2.isEmpty)
    then some n.toFloat
    else none

end Shortlist.Number
