import Shortlist.Number.Whole
import Shortlist.Text.Blank

/-!
# Decimal texts

An integer may be given as a text: digits after an optional sign, with blanks around them.  A
text is read exactly as the integer it spells, when that fits 64 bits.
-/

namespace Shortlist

/-! ### Blanks -/

namespace Text

variable {before cs after : List Char}

/-- Dropping blanks stops at the first character that is none. -/
theorem dropWhile_isBlank_append
    (blank : ∀ c ∈ before, isBlank c = true) (visible : ∀ c ∈ cs.head?, isBlank c = false) :
  (before ++ cs).dropWhile isBlank = cs
  := by
  rw [List.dropWhile_append_of_pos blank]
  cases cs with
  | nil => rfl
  | cons c cs => rw [List.dropWhile_cons_of_neg (by simpa using visible c)]

/-- Blanks at the ends of a text without blanks are taken away. -/
theorem trim_append
    (blankBefore : ∀ c ∈ before, isBlank c = true) (blankAfter : ∀ c ∈ after, isBlank c = true)
    (hne : cs ≠ []) (visible : ∀ c ∈ cs, isBlank c = false) :
  trim (before ++ cs ++ after) = cs
  := by
  have hhead : ∀ c ∈ (cs ++ after).head?, isBlank c = false := by
    obtain ⟨d, cs, rfl⟩ := List.exists_cons_of_ne_nil hne
    rintro _ ⟨⟩
    apply visible d (List.mem_cons_self ..)
  have hlast : ∀ c ∈ cs.reverse.head?, isBlank c = false := by
    intro c hc
    apply visible c (List.mem_reverse.mp (List.mem_of_mem_head? hc))
  have hafter : ∀ c ∈ after.reverse, isBlank c = true := by
    intro c hc
    apply blankAfter c (List.mem_reverse.mp hc)
  rw [trim, List.append_assoc, dropWhile_isBlank_append blankBefore hhead, List.reverse_append,
    dropWhile_isBlank_append hafter hlast, List.reverse_reverse]

/-- Nothing but blanks at the ends is taken away. -/
theorem exists_eq_append_trim (cs : List Char) :
  ∃ before after, cs = before ++ trim cs ++ after
    ∧ (∀ c ∈ before, isBlank c = true) ∧ ∀ c ∈ after, isBlank c = true
  := by
  let rest := cs.dropWhile isBlank
  refine ⟨cs.takeWhile isBlank, (rest.reverse.takeWhile isBlank).reverse, ?_, ?_, ?_⟩
  · rw [trim, List.append_assoc, ← List.reverse_append, List.takeWhile_append_dropWhile,
      List.reverse_reverse, List.takeWhile_append_dropWhile]
  · apply List.all_eq_true.mp
    apply List.all_takeWhile
  · intro c hc
    apply List.all_eq_true.mp List.all_takeWhile c (List.mem_reverse.mp hc)

end Text

/-! ### Integers -/

namespace Number

/-- The characters are digits, at least one, and the number is what they stand for. -/
structure SpellsNat (cs : List Char) (n : Nat) : Prop where
  nonempty : cs ≠ []
  digits : ∀ c ∈ cs, c.isDigit = true
  value : Nat.ofDigitChars 10 cs 0 = n

/-- The characters are digits after a sign or without one, and the number is what they stand
for. -/
inductive Spells : List Char → Int → Prop
  | bare {cs : List Char} {n : Nat} (h : SpellsNat cs n) : Spells cs n
  | plus {cs : List Char} {n : Nat} (h : SpellsNat cs n) : Spells ('+' :: cs) n
  | minus {cs : List Char} {n : Nat} (h : SpellsNat cs n) : Spells ('-' :: cs) (-n)

/-- Digits are read as the natural number they spell. -/
theorem readNat?_eq_some_iff (cs : List Char) (n : Nat) :
  readNat? cs = some n ↔ SpellsNat cs n
  := by
  simp only [readNat?, Option.ite_none_right_eq_some, Option.some.injEq, Bool.and_eq_true,
    Bool.not_eq_true', List.isEmpty_eq_false_iff, List.all_eq_true]
  constructor
  · rintro ⟨⟨nonempty, digits⟩, value⟩
    exact ⟨nonempty, digits, value⟩
  · rintro ⟨nonempty, digits, value⟩
    exact ⟨⟨nonempty, digits⟩, value⟩

/-- A run of digits does not start with a sign. -/
theorem SpellsNat.head_ne {c : Char} {cs : List Char} {n : Nat} (h : SpellsNat (c :: cs) n) :
  c ≠ '+' ∧ c ≠ '-'
  := by
  have hdigit := h.digits c (List.mem_cons_self ..)
  constructor <;> rintro rfl <;> revert hdigit <;> decide

/-- Digits after an optional sign are read as the integer they spell. -/
theorem readSigned?_eq_some_iff (cs : List Char) (n : Int) :
  readSigned? cs = some n ↔ Spells cs n
  := by
  constructor
  · intro h
    rw [readSigned?.eq_def] at h
    split at h
    all_goals
      obtain ⟨m, hm, rfl⟩ := Option.map_eq_some_iff.mp h
      rw [readNat?_eq_some_iff] at hm
    · exact .plus hm
    · exact .minus hm
    · exact .bare hm
  · intro h
    cases h with
    | bare h =>
      obtain ⟨c, cs, rfl⟩ := List.exists_cons_of_ne_nil h.nonempty
      obtain ⟨hplus, hminus⟩ := h.head_ne
      rw [readSigned?, (readNat?_eq_some_iff ..).mpr h]
      · rfl
      · rintro _ ⟨⟩
        exact hplus rfl
      · rintro _ ⟨⟩
        exact hminus rfl
    | plus h =>
      rw [readSigned?, (readNat?_eq_some_iff ..).mpr h]
      rfl
    | minus h =>
      rw [readSigned?, (readNat?_eq_some_iff ..).mpr h]
      rfl

/-- An integer fits 64 bits when it is that of some number of 64 bits. -/
theorem toInt64?_eq_some_iff (n : Int) (i : Int64) :
  toInt64? n = some i ↔ n = i.toInt
  := by
  constructor
  · intro h
    exact (toInt_of_toInt64? h).symm
  · rintro rfl
    apply toInt64?_toInt

/-- A text is read as a 64-bit integer when it spells the integer. -/
theorem readInt64?_eq_some_iff (cs : List Char) (i : Int64) :
  readInt64? cs = some i ↔ Spells cs i.toInt
  := by
  simp only [readInt64?, Option.bind_eq_some_iff, toInt64?_eq_some_iff, readSigned?_eq_some_iff,
    exists_eq_right]

theorem isBlank_of_isDigit {c : Char} (h : c.isDigit = true) :
  Text.isBlank c = false
  := by
  have hlow : 48 ≤ c.toNat := (Char.isDigit_iff_toNat.mp h).1
  have hhigh : c.toNat ≤ 57 := (Char.isDigit_iff_toNat.mp h).2
  simp only [Text.isBlank, Bool.or_eq_false_iff, Bool.and_eq_false_iff, decide_eq_false_iff_not,
    beq_eq_false_iff_ne]
  omega

/-- There are no blanks among digits. -/
theorem SpellsNat.visible {cs : List Char} {n : Nat} (h : SpellsNat cs n) :
  ∀ c ∈ cs, Text.isBlank c = false
  := by
  intro c hc
  apply isBlank_of_isDigit (h.digits c hc)

/-- An integer is spelled without blanks. -/
theorem Spells.visible {cs : List Char} {n : Int} (h : Spells cs n) :
  cs ≠ [] ∧ ∀ c ∈ cs, Text.isBlank c = false
  := by
  cases h with
  | bare h => exact ⟨h.nonempty, h.visible⟩
  | plus h => exact ⟨List.cons_ne_nil _ _, List.forall_mem_cons.mpr ⟨by decide, h.visible⟩⟩
  | minus h => exact ⟨List.cons_ne_nil _ _, List.forall_mem_cons.mpr ⟨by decide, h.visible⟩⟩

/-- The text spells the integer, with any blanks before and after it. -/
inductive SpelledIn (cs : List Char) (n : Int) : Prop
  | mk {before number after : List Char} (text : cs = before ++ number ++ after)
      (blankBefore : ∀ c ∈ before, Text.isBlank c = true) (spells : Spells number n)
      (blankAfter : ∀ c ∈ after, Text.isBlank c = true)

/-- A text without the blanks at its ends spells what the text spells with blanks around it. -/
theorem spells_trim_iff (cs : List Char) (n : Int) :
  Spells (Text.trim cs) n ↔ SpelledIn cs n
  := by
  constructor
  · intro h
    obtain ⟨before, after, htext, hbefore, hafter⟩ := Text.exists_eq_append_trim cs
    apply SpelledIn.mk htext hbefore h hafter
  · rintro ⟨rfl, hbefore, h, hafter⟩
    obtain ⟨hne, hvisible⟩ := h.visible
    rw [Text.trim_append hbefore hafter hne hvisible]
    exact h

/-- A text with blanks at its ends is read as the integer it spells, when that fits 64 bits. -/
theorem readInt64?_trim_eq_some_iff (cs : List Char) (i : Int64) :
  readInt64? (Text.trim cs) = some i ↔ SpelledIn cs i.toInt
  := by rw [readInt64?_eq_some_iff, spells_trim_iff]

/-- A text spells one integer at most. -/
theorem SpelledIn.unique {cs : List Char} {n m : Int} (h : SpelledIn cs n) (h' : SpelledIn cs m) :
  n = m
  := by
  rw [← spells_trim_iff, ← readSigned?_eq_some_iff] at h h'
  exact Option.some.inj (h.symm.trans h')

end Number

end Shortlist
