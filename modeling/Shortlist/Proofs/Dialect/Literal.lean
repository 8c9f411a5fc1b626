import Shortlist.Dialect
import Shortlist.Proofs.Text.Scanner

/-!
# Literals in statements

A number is written with digits, at most a point among them and a minus sign in front, so it
needs no quotes.  A value holds strings at any depth, and its literal is guarded with exactly
these strings after any harmless character.
-/

namespace Shortlist

namespace Number

/-- A text that starts with a digit and goes on with digits and points. -/
def IsMagnitude (cs : List Char) : Prop :=
  ∃ d ds, cs = d :: ds ∧ d.isDigit = true ∧ ∀ c ∈ ds, c.isDigit = true ∨ c = '.'

namespace IsMagnitude

variable {cs : List Char}

/-- Digits alone are a magnitude. -/
theorem of_digits (hne : cs ≠ []) (h : ∀ c ∈ cs, c.isDigit = true) :
  IsMagnitude cs
  := by
  obtain ⟨d, ds, rfl⟩ := List.exists_cons_of_ne_nil hne
  obtain ⟨hd, hds⟩ := List.forall_mem_cons.mp h
  exact ⟨d, ds, rfl, hd, fun c hc => .inl (hds c hc)⟩

/-- Digits and points may follow. -/
theorem append {ds : List Char} (h : IsMagnitude cs)
    (hds : ∀ c ∈ ds, c.isDigit = true ∨ c = '.') :
  IsMagnitude (cs ++ ds)
  := by
  obtain ⟨d, cs, rfl, hd, hcs⟩ := h
  exact ⟨d, cs ++ ds, rfl, hd, List.forall_mem_append.mpr ⟨hcs, hds⟩⟩

/-- There is nothing in a magnitude that could open a string or a comment. -/
theorem harmless (h : IsMagnitude cs) :
  ∀ c ∈ cs, Text.isHarmless c = true
  := by
  obtain ⟨d, ds, rfl, hd, hds⟩ := h
  rw [List.forall_mem_cons]
  constructor
  · apply Text.isHarmless_of_isDigit hd
  · intro c hc
    obtain hdigit | rfl := hds c hc
    · apply Text.isHarmless_of_isDigit hdigit
    · decide

/-- A magnitude is spelled without strings. -/
theorem guarded (h : IsMagnitude cs) :
  Text.Guarded cs []
  := .of_harmless (List.all_eq_true.mpr h.harmless)

/-- A magnitude with a minus sign in front is no comment, as a digit comes next. -/
theorem guarded_minus (h : IsMagnitude cs) :
  Text.Guarded ('-' :: cs) []
  := by
  obtain ⟨d, ds, rfl, hd, -⟩ := id h
  apply Text.Guarded.minus hd
  apply Text.Guarded.of_harmless
  rw [List.all_eq_true]
  intro c hc
  apply h.harmless c (List.mem_cons_of_mem d hc)

end IsMagnitude

theorem isDigit_of_mem_toDigits {n : Nat} :
  ∀ c ∈ Nat.toDigits 10 n, c.isDigit = true
  := fun _ => Nat.isDigit_of_mem_toDigits (by decide) (by decide)

/-- A natural number is written as a magnitude. -/
theorem isMagnitude_digits (n : Nat) :
  IsMagnitude (digits n)
  := .of_digits Nat.toDigits_ne_nil isDigit_of_mem_toDigits

theorem isDigit_of_mem_replicate_zero {n : Nat} :
  ∀ c ∈ List.replicate n '0', c.isDigit = true
  := by
  intro c hc
  rw [List.eq_of_mem_replicate hc]
  decide

/-- Digits laid out around a point start with a digit wherever the point falls. -/
theorem isMagnitude_positional {ds : List Char} (h : ∀ c ∈ ds, c.isDigit = true) (n : Int) :
  IsMagnitude (positional false ds n)
  := by
  have hpoint {ds : List Char} (h : ∀ c ∈ ds, c.isDigit = true) :
      ∀ c ∈ '.' :: ds, c.isDigit = true ∨ c = '.' := by
    rw [List.forall_mem_cons]
    exact ⟨.inr rfl, fun c hc => .inl (h c hc)⟩
  rw [positional]
  split
  · have hzero : IsMagnitude ['0'] := ⟨'0', [], rfl, by decide, by simp⟩
    apply hzero.append
    apply hpoint
    apply List.forall_mem_append.mpr ⟨isDigit_of_mem_replicate_zero, h⟩
  · split
    · rw [if_neg Bool.false_ne_true, List.append_nil]
      apply IsMagnitude.of_digits
      · intro hnil
        have hlength := congrArg List.length hnil
        rw [List.length_append, List.length_replicate, List.length_nil] at hlength
        omega
      · apply List.forall_mem_append.mpr ⟨h, isDigit_of_mem_replicate_zero⟩
    · apply IsMagnitude.append
      · apply IsMagnitude.of_digits
        · intro hnil
          have hlength := congrArg List.length hnil
          rw [List.length_take, List.length_nil] at hlength
          omega
        · intro c hc
          apply h c (List.mem_of_mem_take hc)
      · apply hpoint
        intro c hc
        apply h c (List.mem_of_mem_drop hc)

/-- A double is written as a magnitude, wherever its point stands. -/
theorem isMagnitude_writeMagnitude (b : Binary) :
  IsMagnitude (Layout.plain.writeMagnitude b)
  := by
  rw [Layout.writeMagnitude]
  split
  · apply isMagnitude_positional
    rw [List.forall_mem_singleton]
    decide
  · apply isMagnitude_positional
    intro c hc
    apply isDigit_of_mem_toDigits (n := (b.shortest Layout.plain.tie).coefficient)
    have hmem := (List.dropWhile_sublist _).subset (List.mem_reverse.mp hc)
    apply List.mem_reverse.mp hmem

/-- A natural number is spelled without strings. -/
theorem guarded_natText (n : Nat) :
  Text.Guarded (natText n).toList []
  := by
  rw [natText, String.toList_ofList]
  apply (isMagnitude_digits n).guarded

/-- An integer is spelled without strings. -/
theorem guarded_intText (n : Int) :
  Text.Guarded (intText n).toList []
  := by
  rw [intText, String.toList_ofList]
  cases n with
  | ofNat n => apply (isMagnitude_digits n).guarded
  | negSucc n => apply (isMagnitude_digits (n + 1)).guarded_minus

/-- A finite double is spelled without strings. -/
theorem guarded_floatText {x : Float} (h : isFinite x = true) :
  Text.Guarded (floatText x).toList []
  := by
  have hmagnitude := isMagnitude_writeMagnitude (Binary.ofFloat x)
  rw [floatText, Layout.write, if_pos h, String.toList_ofList]
  cases isNegative x with
  | true => apply hmagnitude.guarded_minus
  | false => apply hmagnitude.guarded

end Number

/-! ### Values -/

mutual

/-- The strings of a value at any depth, in order.  A double that is not finite counts as the
string of its name. -/
def Value.strings : Value → List String
  | .null | .bool _ | .int _ => []
  | .float x => if Number.isFinite x then [] else [Number.floatText x]
  | .string s => [s]
  | .array items => Value.stringsOfItems items

/-- The strings of the values of an array. -/
def Value.stringsOfItems : List Value → List String
  | [] => []
  | v :: vs => v.strings ++ Value.stringsOfItems vs

end

/-- The strings of an array are those of its items, one after the other. -/
theorem Value.stringsOfItems_eq_flatten (vs : List Value) :
  stringsOfItems vs = (vs.map strings).flatten
  := by
  induction vs with
  | nil => rfl
  | cons v vs ih => rw [stringsOfItems, ih, List.map_cons, List.flatten_cons]

namespace Dialect

theorem literals_eq_map (d : Dialect) (vs : List Value) :
  d.literals vs = vs.map d.literal
  := by
  induction vs with
  | nil => rfl
  | cons v vs ih => rw [literals, ih, List.map_cons]

/-- A truth value is spelled without strings. -/
theorem guarded_truth (d : Dialect) (b : Bool) :
  Text.Guarded (d.truth b).toList []
  := by
  apply Text.Guarded.of_harmless
  cases d <;> cases b <;> decide

/-- A placeholder is spelled without strings. -/
theorem guarded_placeholder (d : Dialect) (k : Nat) :
  Text.Guarded (d.placeholder k).toList []
  := by
  cases d with
  | postgres =>
    rw [placeholder, String.toList_append]
    apply Text.Guarded.char (c := '$') (by decide) (Number.guarded_natText k)
  | sqlite =>
    rw [placeholder, String.toList_append]
    apply Text.Guarded.char (c := '?') (by decide) (Number.guarded_natText k)

mutual

/-- The literal of a value is guarded with the strings of the value. -/
theorem guardedAfter_literal (d : Dialect) :
  (v : Value) → Text.GuardedAfter (d.literal v).toList v.strings
  | .null => .of_guarded (.of_harmless (by simp only [literal]; decide))
  | .bool b => by
    rw [literal, Value.strings]
    apply Text.GuardedAfter.of_guarded (guarded_truth d b)
  | .int n => by
    rw [literal, Value.strings]
    apply Text.GuardedAfter.of_guarded (Number.guarded_intText _)
  | .float x => by
    rw [literal, Value.strings, float]
    cases h : Number.isFinite x with
    | true => apply Text.GuardedAfter.of_guarded (Number.guarded_floatText h)
    | false => apply Text.GuardedAfter.quote
  | .string s => by
    rw [literal, Value.strings]
    apply Text.GuardedAfter.quote
  | .array items => by
    rw [literal, Value.strings, Value.stringsOfItems_eq_flatten, String.toList_append,
      String.toList_append, String.toList_intercalate, literals_eq_map, List.append_assoc]
    apply Text.GuardedAfter.of_guarded
    have hitems := Text.GuardedAfter.intercalate (guardedAfter_literals d items)
    rw [← List.append_nil (List.flatten _)]
    apply (hitems '(' (by decide)).append
    apply Text.Guarded.of_harmless
    decide

/-- The literals of the items of an array are guarded with the strings of the items, item by item.
-/
theorem guardedAfter_literals (d : Dialect) :
  (vs : List Value) →
    List.Forall₂ Text.GuardedAfter ((vs.map d.literal).map String.toList) (vs.map Value.strings)
  | [] => .nil
  | v :: vs => .cons (guardedAfter_literal d v) (guardedAfter_literals d vs)

end

end Dialect

end Shortlist
