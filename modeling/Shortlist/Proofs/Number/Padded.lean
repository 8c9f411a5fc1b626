import Mathlib.Algebra.Order.Ring.Int
import Shortlist.Proofs.Dialect.Literal
import Shortlist.Proofs.Lists
import Shortlist.Proofs.Number.Decimal

/-!
# Padded numbers

The text of an integer may be padded with zeros after the sign, with a plus sign when the integer
is not negative, and with blanks at both ends.  A padded text still spells the integer, and a text
spells no integer of 64 bits only when it has no digits, when it has a character that an integer
cannot have at that place, or when the integer does not fit.
-/

namespace Shortlist

/-! ### Visible characters -/

namespace Text

/-- The text has a character that is no blank. -/
def HasVisible (cs : List Char) : Prop := ∃ c ∈ cs, isBlank c = false

theorem not_hasVisible {cs : List Char} (h : ∀ c ∈ cs, isBlank c = true) :
  ¬ HasVisible cs
  := by
  rintro ⟨c, hc, hvisible⟩
  rw [h c hc] at hvisible
  cases hvisible

theorem visible_of_mem_head?_dropWhile (cs : List Char) :
  ∀ c ∈ (cs.dropWhile isBlank).head?, isBlank c = false
  := by
  intro c hc
  have h := List.head?_dropWhile_not isBlank cs
  rw [Option.mem_def.mp hc] at h
  exact h

/-- A text without blanks at its ends begins with a character that is no blank. -/
theorem visible_of_mem_head?_trim (cs : List Char) :
  ∀ c ∈ (trim cs).head?, isBlank c = false
  := by
  intro c hc
  obtain ⟨after, hafter⟩ : trim cs <+: cs.dropWhile isBlank := by
    rw [trim, ← List.reverse_suffix, List.reverse_reverse]
    apply List.dropWhile_suffix
  apply visible_of_mem_head?_dropWhile cs
  rw [← hafter, List.head?_append, Option.mem_def.mp hc]
  rfl

/-- A text without blanks at its ends ends with a character that is no blank. -/
theorem visible_of_mem_getLast?_trim (cs : List Char) :
  ∀ c ∈ (trim cs).getLast?, isBlank c = false
  := by
  rw [trim, List.getLast?_reverse]
  apply visible_of_mem_head?_dropWhile

end Text

namespace Number

open Text

/-! ### Padding -/

/-- The signs that the digits of an integer may have: a minus sign when the integer is negative,
a plus sign or none when it is not. -/
inductive IsSign : Int → List Char → Prop
  | minus {n : Int} (h : n < 0) : IsSign n ['-']
  | plus {n : Int} (h : 0 ≤ n) : IsSign n ['+']
  | none {n : Int} (h : 0 ≤ n) : IsSign n []

/-- The text is that of the integer, with any zeros after the sign and any blanks at both ends. -/
inductive PaddedIn (cs : List Char) (n : Int) : Prop
  | mk {before sign after : List Char} (zeros : Nat)
      (text : cs = before ++ (sign ++ (List.replicate zeros '0' ++ digits n.natAbs)) ++ after)
      (blankBefore : ∀ c ∈ before, isBlank c = true) (isSign : IsSign n sign)
      (blankAfter : ∀ c ∈ after, isBlank c = true)

theorem ofDigitChars_zeros_append (zeros : Nat) (cs : List Char) :
  Nat.ofDigitChars 10 (List.replicate zeros '0' ++ cs) 0 = Nat.ofDigitChars 10 cs 0
  := by
  induction zeros with
  | zero => rfl
  | succ zeros ih =>
    rw [List.replicate_succ, List.cons_append, Nat.ofDigitChars_cons]
    exact ih

/-- Leading zeros do not change the number that the digits stand for. -/
theorem spellsNat_zeros_append (zeros n : Nat) :
  SpellsNat (List.replicate zeros '0' ++ digits n) n
  where
  nonempty := List.append_ne_nil_of_right_ne_nil _ Nat.toDigits_ne_nil
  digits := List.forall_mem_append.mpr ⟨isDigit_of_mem_replicate_zero, isDigit_of_mem_toDigits⟩
  value := by rw [ofDigitChars_zeros_append, digits, Nat.ofDigitChars_toDigits] <;> decide

theorem IsSign.spells {n : Int} {sign cs : List Char} (h : IsSign n sign)
    (hcs : SpellsNat cs n.natAbs) :
  Spells (sign ++ cs) n
  := by
  cases h with
  | minus h =>
    obtain ⟨m, rfl⟩ := Int.exists_eq_neg_ofNat (Int.le_of_lt h)
    rw [Int.natAbs_neg, Int.natAbs_natCast] at hcs
    exact .minus hcs
  | plus h =>
    obtain ⟨m, rfl⟩ := Int.eq_ofNat_of_zero_le h
    exact .plus hcs
  | none h =>
    obtain ⟨m, rfl⟩ := Int.eq_ofNat_of_zero_le h
    exact .bare hcs

/-- A padded text spells the integer that it was made from. -/
theorem PaddedIn.spelledIn {cs : List Char} {n : Int} (h : PaddedIn cs n) :
  SpelledIn cs n
  := by
  obtain ⟨zeros, text, blankBefore, isSign, blankAfter⟩ := h
  exact ⟨text, blankBefore, isSign.spells (spellsNat_zeros_append zeros _), blankAfter⟩

/-- The text of an integer is padded with nothing. -/
theorem paddedIn_intText (n : Int) :
  PaddedIn (intText n).toList n
  := by
  obtain ⟨sign, isSign, hsign⟩ : ∃ sign, IsSign n sign ∧ signed n = sign ++ digits n.natAbs := by
    cases n with
    | ofNat n => exact ⟨[], .none (Int.natCast_nonneg n), rfl⟩
    | negSucc n => exact ⟨['-'], .minus (Int.negSucc_lt_zero n), rfl⟩
  refine ⟨0, ?_, List.forall_mem_nil _, isSign, List.forall_mem_nil _⟩
  rw [intText, String.toList_ofList, hsign, List.append_nil]
  rfl

/-! ### Texts that spell no integer -/

/-- A character that an integer cannot have between the two parts of a text: it is no digit, no
blank at an end, and no sign before everything visible. -/
structure IsForeign (before : List Char) (c : Char) (after : List Char) : Prop where
  notDigit : c.isDigit = false
  inside : isBlank c = true → HasVisible before ∧ HasVisible after
  behind : c = '+' ∨ c = '-' → HasVisible before

/-- The text has a character that an integer cannot have there. -/
def HasForeign (cs : List Char) : Prop :=
  ∃ before c after, cs = before ++ c :: after ∧ IsForeign before c after

/-- The text has a digit. -/
def HasDigit (cs : List Char) : Prop := ∃ c ∈ cs, c.isDigit = true

theorem Spells.hasDigit {cs : List Char} {n : Int} (h : Spells cs n) :
  HasDigit cs
  := by
  have hdigits {cs : List Char} {n : Nat} (h : SpellsNat cs n) : HasDigit cs := by
    obtain ⟨c, cs, rfl⟩ := List.exists_cons_of_ne_nil h.nonempty
    exact ⟨c, List.mem_cons_self, h.digits c List.mem_cons_self⟩
  cases h with
  | bare h => exact hdigits h
  | plus h =>
    obtain ⟨c, hc, hdigit⟩ := hdigits h
    exact ⟨c, List.mem_cons_of_mem _ hc, hdigit⟩
  | minus h =>
    obtain ⟨c, hc, hdigit⟩ := hdigits h
    exact ⟨c, List.mem_cons_of_mem _ hc, hdigit⟩

/-- Of an integer only the first character may be no digit, and that is a sign. -/
theorem Spells.isDigit_or {before after : List Char} {c : Char} {n : Int}
    (h : Spells (before ++ c :: after) n) :
  c.isDigit = true ∨ before = [] ∧ (c = '+' ∨ c = '-')
  := by
  generalize htext : before ++ c :: after = cs at h
  cases before with
  | nil =>
    subst htext
    cases h with
    | bare h => exact .inl (h.digits c List.mem_cons_self)
    | plus h => exact .inr ⟨rfl, .inl rfl⟩
    | minus h => exact .inr ⟨rfl, .inr rfl⟩
  | cons d before =>
    have hmem : c ∈ before ++ c :: after := List.mem_append_right _ List.mem_cons_self
    cases h with
    | bare h =>
      subst htext
      exact .inl (h.digits c (List.mem_cons_of_mem d hmem))
    | plus h =>
      cases htext
      exact .inl (h.digits c hmem)
    | minus h =>
      cases htext
      exact .inl (h.digits c hmem)

theorem SpelledIn.not_hasForeign {cs : List Char} {n : Int} (h : SpelledIn cs n) :
  ¬ HasForeign cs
  := by
  rintro ⟨left, c, right, htext, foreign⟩
  obtain ⟨rfl, blankBefore, spells, blankAfter⟩ := h
  rcases append_eq_append_cons htext with ⟨_, hfront, rfl⟩ | ⟨_, rfl, rfl⟩
  · rcases append_eq_append_cons hfront with ⟨_, rfl, rfl⟩ | ⟨_, rfl, rfl⟩
    · obtain ⟨hleft, hright⟩ := List.forall_mem_append.mp blankBefore
      have hblank := (List.forall_mem_cons.mp hright).1
      cases not_hasVisible hleft (foreign.inside hblank).1
    · rcases spells.isDigit_or with hdigit | ⟨rfl, hsign⟩
      · cases foreign.notDigit.symm.trans hdigit
      · rw [List.append_nil] at foreign
        cases not_hasVisible blankBefore (foreign.behind hsign)
  · have hblank := List.forall_mem_cons.mp (List.forall_mem_append.mp blankAfter).2
    cases not_hasVisible hblank.2 (foreign.inside hblank.1).2

variable {cs : List Char}

/-- Behind the first visible character of a text there is nothing but digits, and that one is a
digit or a sign. -/
theorem isDigit_of_not_hasForeign (h : ¬ HasForeign cs) (before after : List Char) (c : Char)
    (htrim : trim cs = before ++ c :: after) :
  c.isDigit = true ∨ before = [] ∧ (c = '+' ∨ c = '-')
  := by
  by_contra hc
  rw [not_or, Bool.not_eq_true] at hc
  obtain ⟨left, right, htext, -, -⟩ := exists_eq_append_trim cs
  rw [htrim] at htext
  have hfirst (hne : before ≠ [] ∨ isBlank c = true) : HasVisible (left ++ before) := by
    have hvisible := visible_of_mem_head?_trim cs
    rw [htrim] at hvisible
    cases before with
    | nil => cases (hvisible c rfl).symm.trans (hne.resolve_left (· rfl))
    | cons d before => exact ⟨d, by simp, hvisible d rfl⟩
  have hlast (hblank : isBlank c = true) : HasVisible (after ++ right) := by
    have hvisible := visible_of_mem_getLast?_trim cs
    rw [htrim] at hvisible
    rcases List.eq_nil_or_concat' after with rfl | ⟨after, d, rfl⟩
    · cases (hvisible c (by simp)).symm.trans hblank
    · rw [← List.cons_append, ← List.append_assoc, List.getLast?_concat] at hvisible
      exact ⟨d, by simp, hvisible d rfl⟩
  apply h
  use left ++ before, c, after ++ right, by simp [htext], hc.1
  · intro hblank
    exact ⟨hfirst (.inr hblank), hlast hblank⟩
  · intro hsign
    apply hfirst
    left
    rintro rfl
    exact hc.2 ⟨rfl, hsign⟩

theorem hasDigit_trim (h : HasDigit cs) :
  HasDigit (trim cs)
  := by
  obtain ⟨c, hc, hdigit⟩ := h
  obtain ⟨before, after, htext, hbefore, hafter⟩ := exists_eq_append_trim cs
  have hblank {cs : List Char} (h : ∀ c ∈ cs, isBlank c = true) : c ∉ cs := by
    intro hc
    cases (h c hc).symm.trans (isBlank_of_isDigit hdigit)
  rw [htext, List.mem_append, List.mem_append] at hc
  exact ⟨c, (hc.resolve_right (hblank hafter)).resolve_left (hblank hbefore), hdigit⟩

/-- A text spells an integer exactly when it has a digit and no character that an integer cannot
have at its place. -/
theorem exists_spelledIn_iff (cs : List Char) :
  (∃ n, SpelledIn cs n) ↔ HasDigit cs ∧ ¬ HasForeign cs
  := by
  constructor
  · rintro ⟨n, h⟩
    refine ⟨?_, h.not_hasForeign⟩
    obtain ⟨rfl, -, spells, -⟩ := h
    obtain ⟨c, hc, hdigit⟩ := spells.hasDigit
    exact ⟨c, by simp [hc], hdigit⟩
  · rintro ⟨hdigit, h⟩
    have hall := isDigit_of_not_hasForeign h
    simp only [← spells_trim_iff]
    obtain ⟨d, hd, hdigit⟩ := hasDigit_trim hdigit
    generalize trim cs = number at *
    cases number with
    | nil => cases hd
    | cons c number =>
      have hnumber : ∀ c ∈ number, c.isDigit = true := by
        intro e he
        obtain ⟨before, after, rfl⟩ := List.append_of_mem he
        apply (hall (c :: before) after e rfl).resolve_right
        rintro ⟨⟨⟩, -⟩
      rcases hall [] number c rfl with hc | ⟨-, hsign⟩
      · exact ⟨_, .bare ⟨List.cons_ne_nil _ _, List.forall_mem_cons.mpr ⟨hc, hnumber⟩, rfl⟩⟩
      · have hne : number ≠ [] := by
          rintro rfl
          obtain rfl := List.mem_singleton.mp hd
          rcases hsign with rfl | rfl <;> cases hdigit
        rcases hsign with rfl | rfl
        · exact ⟨_, .plus ⟨hne, hnumber, rfl⟩⟩
        · exact ⟨_, .minus ⟨hne, hnumber, rfl⟩⟩

/-- What keeps a text from being read as an integer of 64 bits: the integer does not fit, a
character cannot stand where it stands, or there are no digits. -/
inductive IsNoInt64 (cs : List Char) : Prop
  | beyond {n : Int} (spelled : SpelledIn cs n) (outside : n < -2 ^ 63 ∨ 2 ^ 63 ≤ n)
  | foreign (h : HasForeign cs)
  | noDigit (h : ¬ HasDigit cs)

theorem readInt64?_trim_eq_none_iff (cs : List Char) :
  readInt64? (trim cs) = none ↔ IsNoInt64 cs
  := by
  rw [Option.eq_none_iff_forall_ne_some]
  simp only [ne_eq, readInt64?_trim_eq_some_iff]
  constructor
  · intro h
    by_cases hdigit : HasDigit cs
    · by_cases hforeign : HasForeign cs
      · exact .foreign hforeign
      · obtain ⟨n, hn⟩ := (exists_spelledIn_iff cs).mpr ⟨hdigit, hforeign⟩
        apply IsNoInt64.beyond hn
        by_contra hinside
        apply h (Int64.ofInt n)
        rw [Int64.toInt_ofInt_of_le]
        · exact hn
        · omega
        · omega
    · exact .noDigit hdigit
  · rintro h i hi
    cases h with
    | beyond spelled outside =>
      obtain rfl := spelled.unique hi
      have hlow := i.le_toInt
      have hhigh := i.toInt_lt
      omega
    | foreign h => exact hi.not_hasForeign h
    | noDigit h => exact h ((exists_spelledIn_iff cs).mp ⟨_, hi⟩).1

end Number

end Shortlist
