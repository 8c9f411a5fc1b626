import Mathlib
import Shortlist.Text.Blank
import Shortlist.Text.Word

/-!
# Words of texts

A word of a text is a run of word characters that goes on neither before nor after it.  A search
for a word that stands alone finds it exactly when it is a word of the text.  Words are looked up
in the lower-case text; a letter in another case stays a word character, so the words of the
lower-case text are those of the text in lower case.
-/

namespace Shortlist.Text

/-- Whether a text ends inside a word, when `inWord` says whether a word character comes before
it. -/
def endsInWord (inWord : Bool) (cs : List Char) : Bool :=
  cs.getLast?.elim inWord isWordChar

/-- A word of a text: word characters with no word character right before or right after them. -/
structure IsWordOf (word cs : List Char) : Prop where
  nonempty : word ≠ []
  chars : ∀ c ∈ word, isWordChar c = true
  maximal : ∃ before after, cs = before ++ word ++ after ∧ endsInWord false before = false
    ∧ startsInWord after = false

theorem endsInWord_cons (inWord : Bool) (c : Char) (cs : List Char) :
  endsInWord inWord (c :: cs) = endsInWord (isWordChar c) cs
  := by
  rw [endsInWord, endsInWord, List.getLast?_cons]
  cases cs.getLast? <;> rfl

/-! ### The search -/

/-- A word is found where it stands with no word character on either side. -/
theorem occursAlone_iff {word : List Char} (nonempty : word ≠ []) (inWord : Bool)
    (cs : List Char) :
  occursAlone word inWord cs = true
    ↔ ∃ before after, cs = before ++ word ++ after ∧ endsInWord inWord before = false
        ∧ startsInWord after = false
  := by
  induction cs generalizing inWord with
  | nil => simp [occursAlone, nonempty]
  | cons c cs ih =>
    rw [occursAlone, Bool.or_eq_true, ih]
    constructor
    · rintro (h | ⟨before, after, rfl, hbefore, hafter⟩)
      · simp only [Bool.and_eq_true, Bool.not_eq_true', List.isPrefixOf_iff_prefix] at h
        obtain ⟨⟨hbefore, after, hsplit⟩, hafter⟩ := h
        rw [← hsplit, List.drop_left] at hafter
        exact ⟨[], after, hsplit.symm, hbefore, hafter⟩
      · rw [← endsInWord_cons inWord] at hbefore
        exact ⟨c :: before, after, rfl, hbefore, hafter⟩
    · rintro ⟨before, after, hsplit, hbefore, hafter⟩
      cases before with
      | nil =>
        left
        rw [List.nil_append] at hsplit
        have hfound : word.isPrefixOf (word ++ after) = true := by simp
        rw [hsplit, List.drop_left, hafter, hfound, show inWord = false from hbefore]
        rfl
      | cons d before =>
        right
        obtain ⟨rfl, rfl⟩ := List.cons.inj hsplit
        rw [endsInWord_cons] at hbefore
        exact ⟨before, after, rfl, hbefore, hafter⟩

/-- The search finds a word exactly when it is a word of the text. -/
theorem occursAlone_iff_isWordOf {word : List Char} (nonempty : word ≠ [])
    (chars : ∀ c ∈ word, isWordChar c = true) (cs : List Char) :
  occursAlone word false cs = true ↔ IsWordOf word cs
  := by
  rw [occursAlone_iff nonempty]
  constructor
  · intro maximal
    exact ⟨nonempty, chars, maximal⟩
  · intro h
    exact h.maximal

/-- A text of word characters has no word but itself. -/
theorem IsWordOf.eq_of_chars {word cs : List Char} (h : IsWordOf word cs)
    (chars : ∀ c ∈ cs, isWordChar c = true) :
  word = cs
  := by
  obtain ⟨-, -, before, after, rfl, hbefore, hafter⟩ := h
  rw [List.forall_mem_append, List.forall_mem_append] at chars
  have hnil : before = [] := by
    rcases List.eq_nil_or_concat before with rfl | ⟨init, c, rfl⟩
    · rfl
    · rw [endsInWord, List.concat_eq_append, List.getLast?_concat, Option.elim_some,
        chars.1.1 c (by simp)] at hbefore
      cases hbefore
  have hnil' : after = [] := by
    cases after with
    | nil => rfl
    | cons c after =>
      rw [startsInWord, List.head?_cons, Option.any_some, chars.2 c List.mem_cons_self] at hafter
      cases hafter
  rw [hnil, hnil', List.nil_append, List.append_nil]

/-- A word does not end in a character that is no word character. -/
theorem IsWordOf.of_concat {word cs : List Char} {c : Char} (h : IsWordOf word (cs ++ [c]))
    (hc : isWordChar c = false) :
  IsWordOf word cs
  := by
  obtain ⟨nonempty, chars, before, after, hsplit, hbefore, hafter⟩ := h
  refine ⟨nonempty, chars, before, ?_⟩
  cases after using List.reverseRecOn with
  | nil =>
    have hlast := congrArg List.getLast? hsplit
    rw [List.append_nil, List.getLast?_concat, List.getLast?_append_of_ne_nil _ nonempty] at hlast
    rw [chars c (List.mem_of_getLast? hlast.symm)] at hc
    cases hc
  | append_singleton after d _ =>
    rw [← List.append_assoc] at hsplit
    refine ⟨after, (List.append_inj' hsplit rfl).1, hbefore, ?_⟩
    cases after with
    | nil => rfl
    | cons a after => exact hafter

/-- A fragment without the last character stands before it. -/
theorem infix_of_infix_concat {fragment cs : List Char} {c : Char}
    (h : fragment <:+: cs ++ [c]) (hc : c ∉ fragment) :
  fragment <:+: cs
  := by
  rcases List.infix_concat_iff.mp h with hsuffix | hinfix
  · rcases List.suffix_concat_iff.mp hsuffix with rfl | ⟨part, rfl, -⟩
    · apply List.nil_infix
    · cases hc (by simp)
  · exact hinfix

/-! ### The case of letters -/

theorem toLower_of_isAlpha_eq_false {c : Char} (h : c.isAlpha = false) :
  c.toLower = c
  := by
  rw [Char.isAlpha, Bool.or_eq_false_iff] at h
  apply Char.toLower_eq_of_not_isUpper
  rw [h.1]
  decide

/-- A function with the same value for all letters does not tell a letter from its lower case. -/
theorem apply_toLower {α : Type} {f : Char → α} {a : α} (h : ∀ c, c.isAlpha = true → f c = a)
    (c : Char) :
  f c.toLower = f c
  := by
  cases halpha : c.isAlpha with
  | true =>
    have hlower : c.toLower.isAlpha = true := by rw [Char.isAlpha_toLower_eq_isAlpha, halpha]
    rw [h c halpha, h _ hlower]
  | false => rw [toLower_of_isAlpha_eq_false halpha]

theorem toNat_of_isAlpha {c : Char} (h : c.isAlpha = true) :
  65 ≤ c.toNat ∧ c.toNat ≤ 122
  := by
  simp only [Char.isAlpha, Char.isUpper, Char.isLower, Bool.or_eq_true, Bool.and_eq_true,
    decide_eq_true_eq, ge_iff_le, UInt32.le_iff_toNat_le] at h
  change (65 ≤ c.toNat ∧ c.toNat ≤ 90) ∨ (97 ≤ c.toNat ∧ c.toNat ≤ 122) at h
  omega

theorem toNat_of_isDigit {c : Char} (h : c.isDigit = true) :
  48 ≤ c.toNat ∧ c.toNat ≤ 57
  := by
  simp only [Char.isDigit, Bool.and_eq_true, decide_eq_true_eq] at h
  constructor
  · apply UInt32.le_iff_toNat_le.mp h.1
  · apply UInt32.le_iff_toNat_le.mp h.2

theorem toNat_of_isWordChar {c : Char} (h : isWordChar c = true) :
  48 ≤ c.toNat ∧ c.toNat ≤ 122
  := by
  simp only [isWordChar, Char.isAlphanum, Bool.or_eq_true, beq_iff_eq] at h
  rcases h with (halpha | hdigit) | rfl
  · have hrange := toNat_of_isAlpha halpha
    omega
  · have hrange := toNat_of_isDigit hdigit
    omega
  · decide

/-- Word characters are ASCII characters. -/
theorem isWordChar_eq_false_of_le {c : Char} (h : 128 ≤ c.toNat) :
  isWordChar c = false
  := by
  rw [← Bool.not_eq_true]
  intro hword
  have hrange := toNat_of_isWordChar hword
  omega

/-- No word character is a blank. -/
theorem isBlank_of_isWordChar {c : Char} (h : isWordChar c = true) :
  isBlank c = false
  := by
  have hrange := toNat_of_isWordChar h
  simp only [isBlank, Bool.or_eq_false_iff, Bool.and_eq_false_iff, decide_eq_false_iff_not,
    beq_eq_false_iff_ne]
  omega

/-- A word character stays one in lower case, and no other becomes one. -/
theorem isWordChar_toLower (c : Char) :
  isWordChar c.toLower = isWordChar c
  := by
  apply apply_toLower (a := true)
  intro c h
  simp [isWordChar, Char.isAlphanum, h]

/-- A blank stays one in lower case, and no other becomes one. -/
theorem isBlank_toLower (c : Char) :
  isBlank c.toLower = isBlank c
  := by
  apply apply_toLower (a := false)
  intro c h
  apply isBlank_of_isWordChar
  simp [isWordChar, Char.isAlphanum, h]

theorem utf8Size_toLower (c : Char) :
  c.toLower.utf8Size = c.utf8Size
  := by
  apply apply_toLower (a := 1)
  intro c h
  have hrange := toNat_of_isAlpha h
  rw [Char.utf8Size_eq_one_iff, UInt32.le_iff_toNat_le]
  change c.toNat ≤ 127
  omega

/-- A text without letters is its own lower case. -/
theorem map_toLower_of_noLetters {cs : List Char} (h : ∀ c ∈ cs, c.isAlpha = false) :
  cs.map Char.toLower = cs
  := by
  apply Eq.trans (List.map_congr_left _) (List.map_id cs)
  intro c hc
  apply toLower_of_isAlpha_eq_false (h c hc)

/-- A fragment without letters stands where it does in the lower-case text. -/
theorem infix_map_toLower_iff {fragment : List Char}
    (h : ∀ c ∈ fragment, c.isAlpha = false) (cs : List Char) :
  fragment <:+: cs.map Char.toLower ↔ fragment <:+: cs
  := by
  rw [List.infix_map_iff]
  constructor
  · rintro ⟨part, hpart, rfl⟩
    rw [map_toLower_of_noLetters]
    · exact hpart
    · intro c hc
      rw [← Char.isAlpha_toLower_eq_isAlpha]
      exact h _ (List.mem_map_of_mem hc)
  · intro hpart
    use fragment, hpart
    rw [map_toLower_of_noLetters h]

/-- A function that keeps word characters apart from others maps the words of a text. -/
theorem isWordOf_map_iff {f : Char → Char} (kept : ∀ c, isWordChar (f c) = isWordChar c)
    (word cs : List Char) :
  IsWordOf word (cs.map f) ↔ ∃ run, IsWordOf run cs ∧ run.map f = word
  := by
  have hends (before : List Char) :
      endsInWord false (before.map f) = endsInWord false before := by
    rw [endsInWord, endsInWord, List.getLast?_map]
    cases before.getLast? with
    | none => rfl
    | some c => exact kept c
  have hstarts (after : List Char) : startsInWord (after.map f) = startsInWord after := by
    rw [startsInWord, startsInWord, List.head?_map]
    cases after.head? with
    | none => rfl
    | some c => exact kept c
  constructor
  · rintro ⟨nonempty, chars, before, after, hsplit, hbefore, hafter⟩
    obtain ⟨init, rest, rfl, hinit, rfl⟩ := List.map_eq_append_iff.mp hsplit
    obtain ⟨before, run, rfl, rfl, rfl⟩ := List.map_eq_append_iff.mp hinit
    rw [hends] at hbefore
    rw [hstarts] at hafter
    use run
    refine ⟨⟨?_, ?_, before, rest, rfl, hbefore, hafter⟩, rfl⟩
    · rintro rfl
      exact nonempty rfl
    · simpa [kept] using chars
  · rintro ⟨run, ⟨nonempty, chars, before, after, rfl, hbefore, hafter⟩, rfl⟩
    refine ⟨by simpa using nonempty, by simpa [kept] using chars, before.map f, after.map f,
      by simp, ?_, ?_⟩
    · rw [hends, hbefore]
    · rw [hstarts, hafter]

end Shortlist.Text
