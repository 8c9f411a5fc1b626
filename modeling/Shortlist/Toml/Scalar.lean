import Shortlist.Json.Basic
import Shortlist.Number.Numeral

/-!
# Scalars of a TOML document

`scalar?` reads an unquoted word: a truth value, an integer, a double or a moment in time.
Digits may be grouped by single underscores.  An integer outside the 64-bit range and a
double too large are refused; infinities and the number that is no number read as null, and a
moment as an object with one member, its text.
-/

namespace Shortlist.Toml

open Shortlist.Number (Numeral)

/-- Digits without the underscores between them, when every underscore stands between two
digits. -/
def ungroup? (isDigit : Char → Bool) : List Char → Option (List Char)
  | [] => none
  | [c] => if isDigit c then some [c] else none
  | c :: '_' :: cs => if isDigit c then (ungroup? isDigit cs).map (c :: ·) else none
  | c :: cs => if isDigit c then (ungroup? isDigit cs).map (c :: ·) else none

/-- The value of a digit of a base up to sixteen. -/
def digitValue (c : Char) : Nat :=
  if c.isDigit then c.toNat - '0'.toNat
  else if 'a' ≤ c ∧ c ≤ 'f' then c.toNat - 'a'.toNat + 10
  else if 'A' ≤ c ∧ c ≤ 'F' then c.toNat - 'A'.toNat + 10
  else 16

/-- The number that digits of a base stand for. -/
def inBase? (base : Nat) (cs : List Char) : Option Int :=
  (ungroup? (digitValue · < base) cs).map fun ds =>
    Int.ofNat (ds.foldl (fun n c => base * n + digitValue c) 0)

/-- Digits of a whole part: grouped decimal digits with no leading zero. -/
def wholePart? (cs : List Char) : Option (List Char) :=
  match cs with
  | '0' :: _ :: _ => none
  | _ => ungroup? Char.isDigit cs

/-- The integer a word spells. -/
def integer? : List Char → Option Int
  | '0' :: 'x' :: cs => inBase? 16 cs
  | '0' :: 'o' :: cs => inBase? 8 cs
  | '0' :: 'b' :: cs => inBase? 2 cs
  | cs =>
    let (sign, cs) := Numeral.scanSign cs
    (wholePart? cs).map fun ds =>
      if sign = some '-' then -(Number.valueFrom 0 ds : Int) else Number.valueFrom 0 ds

/-- The parts of a word that spells a double: a whole part, and a fraction or a power. -/
def real? (cs : List Char) : Option Numeral := do
  let (sign, cs) := Numeral.scanSign cs
  let isPlain c := c != '.' && c != 'e' && c != 'E'
  let whole ← wholePart? (cs.takeWhile isPlain)
  let cs := cs.dropWhile isPlain
  let (fraction, cs) ← match cs with
    | '.' :: cs => do
      let fraction ← ungroup? Char.isDigit (cs.takeWhile isPlain)
      pure (some fraction, cs.dropWhile isPlain)
    | cs => pure (none, cs)
  let power ← match cs with
    | [] => pure none
    | c :: cs =>
      if c = '.' then none
      else do
        let (sign, cs) := Numeral.scanSign cs
        let ds ← ungroup? Char.isDigit cs
        pure (some (sign, ds))
  if fraction.isNone && power.isNone then none
  else pure { sign, whole, fraction, power }

/-- Two digits and their value, and the rest of the text. -/
def twoDigits? : List Char → Option (Nat × List Char)
  | a :: b :: cs =>
    if a.isDigit && b.isDigit then some (Number.valueFrom 0 [a, b], cs) else none
  | _ => none

/-- The days of a month. -/
def daysIn (year month : Nat) : Nat :=
  if month = 2 then
    if year % 4 = 0 ∧ (year % 100 ≠ 0 ∨ year % 400 = 0) then 29 else 28
  else if month = 4 ∨ month = 6 ∨ month = 9 ∨ month = 11 then 30
  else 31

/-- The rest of a text after a date. -/
def afterDate? (cs : List Char) : Option (List Char) := do
  let (century, cs) ← twoDigits? cs
  let (years, cs) ← twoDigits? cs
  let '-' :: cs := cs | none
  let (month, cs) ← twoDigits? cs
  let '-' :: cs := cs | none
  let (day, cs) ← twoDigits? cs
  let year := 100 * century + years
  if 1 ≤ month ∧ month ≤ 12 ∧ 1 ≤ day ∧ day ≤ daysIn year month then pure cs else none

/-- The rest of a text after a time of day, whose seconds may be left out. -/
def afterTime? (cs : List Char) : Option (List Char) := do
  let (hour, cs) ← twoDigits? cs
  let ':' :: cs := cs | none
  let (minute, cs) ← twoDigits? cs
  if 23 < hour ∨ 59 < minute then none
  else match cs with
    | ':' :: cs => do
      let (second, cs) ← twoDigits? cs
      if 60 < second then none
      else match cs with
        | '.' :: cs =>
          if (cs.takeWhile Char.isDigit).isEmpty then none else pure (cs.dropWhile Char.isDigit)
        | cs => pure cs
    | cs => pure cs

/-- Whether the text is empty or the offset of a time zone. -/
def isOffset : List Char → Bool
  | [] => true
  | c :: cs =>
    if c = 'Z' ∨ c = 'z' then cs.isEmpty
    else if c = '+' ∨ c = '-' then
      match twoDigits? cs with
      | some (hours, ':' :: cs) =>
        match twoDigits? cs with
        | some (minutes, []) => hours ≤ 23 && minutes ≤ 59
        | _ => false
      | _ => false
    else false

/-- Whether the text is a date, a time of day, or both with an optional offset. -/
def isMoment (cs : List Char) : Bool :=
  match afterDate? cs with
  | some [] => true
  | some (c :: cs) =>
    (c == 'T' || c == 't' || c == ' ') && (afterTime? cs).any isOffset
  | none => (afterTime? cs).any List.isEmpty

/-- The member that holds the text of a moment. -/
def momentKey : String := "$__toml_private_datetime"

/-- The tree of an unquoted word. -/
def scalar? (cs : List Char) : Option Json :=
  let unsigned := (Numeral.scanSign cs).2
  if cs = "true".toList then some (.bool true)
  else if cs = "false".toList then some (.bool false)
  else if unsigned = "inf".toList ∨ unsigned = "nan".toList then some .null
  else if isMoment cs then some (.object [(momentKey, .string (String.ofList cs))])
  else match integer? cs with
    | some n =>
      if Int64.minValue.toInt ≤ n ∧ n < UInt64.size then some (.number (.whole n)) else none
    | none =>
      match real? cs with
      | none => none
      | some n => if Number.isFinite n.toFloat then some (.number (.real n.toFloat)) else none

end Shortlist.Toml
