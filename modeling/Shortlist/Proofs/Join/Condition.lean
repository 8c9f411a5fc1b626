import Shortlist.Join.Condition
import Shortlist.Proofs.Text.Words

/-!
# Conditions of joins

A condition is allowed by a rule on its size, its fragments and its words, which `isCondition_iff`
states without the search that decides it.  The rule does not look at the case of letters.
-/

namespace Shortlist.Join

open Text

/-! ### Words -/

/-- The text has a forbidden word, in some mix of cases. -/
def HasForbiddenWord (cs : List Char) : Prop :=
  ∃ run, IsWordOf run cs ∧ String.ofList (run.map Char.toLower) ∈ forbiddenWords

theorem chars_of_mem_forbiddenWords :
  ∀ word ∈ forbiddenWords, word.toList ≠ [] ∧ ∀ c ∈ word.toList, isWordChar c = true
  := by
  have hall : ∀ word ∈ forbiddenWords,
      (!word.toList.isEmpty && word.toList.all isWordChar) = true := by decide
  intro word hword
  simpa using hall word hword

/-- The search in the lower-case text finds a forbidden word exactly when the text has one. -/
theorem exists_occursAlone_iff (cs : List Char) :
  (∃ word ∈ forbiddenWords, occursAlone word.toList false (cs.map Char.toLower) = true)
    ↔ HasForbiddenWord cs
  := by
  constructor
  · rintro ⟨word, hword, h⟩
    obtain ⟨nonempty, chars⟩ := chars_of_mem_forbiddenWords word hword
    rw [occursAlone_iff_isWordOf nonempty chars, isWordOf_map_iff isWordChar_toLower] at h
    obtain ⟨run, hrun, hmap⟩ := h
    use run, hrun
    rwa [hmap, String.ofList_toList]
  · rintro ⟨run, hrun, hword⟩
    use String.ofList (run.map Char.toLower), hword
    obtain ⟨nonempty, chars⟩ := chars_of_mem_forbiddenWords _ hword
    rw [occursAlone_iff_isWordOf nonempty chars, isWordOf_map_iff isWordChar_toLower]
    use run, hrun
    rw [String.toList_ofList]

/-- A forbidden word stands alone at the ends of a text and beside characters of other kinds. -/
theorem HasForbiddenWord.of_append {before run after : List Char}
    (forbidden : String.ofList (run.map Char.toLower) ∈ forbiddenWords)
    (hbefore : ∀ c ∈ before.getLast?, isWordChar c = false)
    (hafter : ∀ c ∈ after.head?, isWordChar c = false) :
  HasForbiddenWord (before ++ run ++ after)
  := by
  obtain ⟨nonempty, chars⟩ := chars_of_mem_forbiddenWords _ forbidden
  rw [String.toList_ofList] at nonempty chars
  refine ⟨run, ⟨by simpa using nonempty, ?_, before, after, rfl, ?_, ?_⟩, forbidden⟩
  · simpa [isWordChar_toLower] using chars
  · rw [endsInWord]
    cases hlast : before.getLast? with
    | none => rfl
    | some c => exact hbefore c hlast
  · rw [startsInWord]
    cases hhead : after.head? with
    | none => rfl
    | some c => exact hafter c hhead

/-- A text of word characters has no forbidden word inside it. -/
theorem hasForbiddenWord_iff_mem {cs : List Char} (chars : ∀ c ∈ cs, isWordChar c = true) :
  HasForbiddenWord cs ↔ String.ofList (cs.map Char.toLower) ∈ forbiddenWords
  := by
  constructor
  · rintro ⟨run, hrun, hword⟩
    obtain rfl := hrun.eq_of_chars chars
    exact hword
  · intro hword
    have h := @HasForbiddenWord.of_append [] cs [] hword (by simp) (by simp)
    simpa using h

/-! ### Fragments -/

theorem all_not_occurs_iff (fragments : List String) (cs : List Char) :
  fragments.all (fun fragment => !occurs fragment.toList cs) = true
    ↔ ∀ fragment ∈ fragments, ¬ fragment.toList <:+: cs
  := by simp [← occurs_iff]

/-! ### The rule -/

/-- Two texts that are the same but for the case of letters are both allowed or both not. -/
theorem isCondition_congr {s t : String}
    (h : s.toList.map Char.toLower = t.toList.map Char.toLower) :
  isCondition s = isCondition t
  := by
  have hblank (cs : List Char) :
      cs.any (!isBlank ·) = (cs.map Char.toLower).any (!isBlank ·) := by
    rw [List.any_map]
    congr 1
    funext c
    rw [Function.comp_apply, isBlank_toLower]
  have hsize (s : String) : s.utf8ByteSize = String.utf8Len (s.toList.map Char.toLower) := by
    rw [← String.utf8Len_toList]
    induction s.toList with
    | nil => rfl
    | cons c cs ih =>
      rw [List.map_cons, String.utf8Len_cons, String.utf8Len_cons, utf8Size_toLower, ih]
  have hmarks (cs : List Char) : forbiddenMarks.all (!occurs ·.toList cs)
      = forbiddenMarks.all (!occurs ·.toList (cs.map Char.toLower)) := by
    have hall : ∀ mark ∈ forbiddenMarks, mark.toList.all (!·.isAlpha) = true := by decide
    have hletters : ∀ mark ∈ forbiddenMarks, ∀ c ∈ mark.toList, c.isAlpha = false := by
      simpa using hall
    rw [Bool.eq_iff_iff, all_not_occurs_iff, all_not_occurs_iff]
    apply forall₂_congr
    intro mark hmark
    rw [infix_map_toLower_iff (hletters mark hmark)]
  rw [isCondition, isCondition, hblank, hblank t.toList, hsize, hsize t, hmarks, hmarks t.toList, h]

/-- The rule for conditions: there is something in the text but blanks, it has at most 1000 bytes,
it has none of the fragments that are refused, in lower case where they have letters, and none of
its words is forbidden in any mix of cases. -/
structure IsAllowed (s : String) : Prop where
  visible : ∃ c ∈ s.toList, isBlank c = false
  size : s.utf8ByteSize ≤ 1000
  marks : ∀ mark ∈ ["--", "/*", "*/", ";", "`"], ¬ mark.toList <:+: s.toList
  fragments : ∀ fragment ∈ ["pg_", "sqlite_", "information_schema", "sys.", "0x", "\\x"],
    ¬ fragment.toList <:+: s.toList.map Char.toLower
  words : ¬ HasForbiddenWord s.toList

theorem isCondition_eq_true_iff (s : String) :
  isCondition s = true ↔ IsAllowed s
  := by
  have hwords : forbiddenWords.all
        (fun word => !occursAlone word.toList false (s.toList.map Char.toLower)) = true
      ↔ ¬ HasForbiddenWord s.toList := by
    rw [← exists_occursAlone_iff]
    simp
  simp only [isCondition, Bool.and_eq_true, hwords, all_not_occurs_iff, decide_eq_true_eq,
    List.any_eq_true, Bool.not_eq_true']
  constructor
  · rintro ⟨⟨⟨⟨visible, size⟩, marks⟩, words⟩, fragments⟩
    exact ⟨visible, size, marks, fragments, words⟩
  · rintro ⟨visible, size, marks, fragments, words⟩
    exact ⟨⟨⟨⟨visible, size⟩, marks⟩, words⟩, fragments⟩

/-- A text is allowed as a condition exactly when it keeps the rule.  The case of letters does not
count.  A forbidden word is found at the beginning of the text, at its end and beside characters
that are not ASCII, and is not found inside a longer word. -/
theorem isCondition_iff_isAllowed (s : String) :
  (isCondition s = true ↔ IsAllowed s)
    ∧ (∀ t, t.toList.map Char.toLower = s.toList.map Char.toLower → isCondition t = isCondition s)
    ∧ (∀ before run after, s.toList = before ++ run ++ after →
        String.ofList (run.map Char.toLower) ∈ forbiddenWords →
        (∀ c ∈ before.getLast?, 128 ≤ c.toNat) → (∀ c ∈ after.head?, 128 ≤ c.toNat) →
        isCondition s = false)
    ∧ ((∀ c ∈ s.toList, isWordChar c = true) →
        (isCondition s = true ↔ s ≠ "" ∧ s.utf8ByteSize ≤ 1000
          ∧ (∀ fragment ∈ forbiddenFragments, ¬ fragment.toList <:+: s.toList.map Char.toLower)
          ∧ String.ofList (s.toList.map Char.toLower) ∉ forbiddenWords))
  := by
  refine ⟨isCondition_eq_true_iff s, fun t h => isCondition_congr h, ?_, ?_⟩
  · intro before run after hsplit forbidden hbefore hafter
    have hfound : HasForbiddenWord s.toList := by
      rw [hsplit]
      apply HasForbiddenWord.of_append forbidden
      · intro c hc
        apply isWordChar_eq_false_of_le (hbefore c hc)
      · intro c hc
        apply isWordChar_eq_false_of_le (hafter c hc)
    rw [← Bool.not_eq_true, isCondition_eq_true_iff]
    intro h
    exact h.words hfound
  · intro chars
    rw [isCondition_eq_true_iff, ← hasForbiddenWord_iff_mem chars]
    constructor
    · rintro ⟨⟨c, hc, -⟩, size, -, fragments, words⟩
      refine ⟨?_, size, fragments, words⟩
      rintro rfl
      cases hc
    · rintro ⟨nonempty, size, fragments, words⟩
      refine ⟨?_, size, ?_, fragments, words⟩
      · have hne : s.toList ≠ [] := by simpa using nonempty
        obtain ⟨c, hc⟩ := List.exists_mem_of_ne_nil _ hne
        exact ⟨c, hc, isBlank_of_isWordChar (chars c hc)⟩
      · intro mark hmark hpart
        have hany : ∀ mark ∈ forbiddenMarks, mark.toList.any (!isWordChar ·) = true := by decide
        have hother : ∀ mark ∈ forbiddenMarks, ∃ c ∈ mark.toList, isWordChar c = false := by
          simpa using hany
        obtain ⟨c, hc, hfalse⟩ := hother mark hmark
        rw [chars c (hpart.subset hc)] at hfalse
        cases hfalse

/-- The condition of a join of authors, its text in other cases, a forbidden word between two
letters that are not ASCII, and a word with two forbidden words in it. -/
theorem isCondition_iff_isAllowed_authors :
  ∃ s t u w : String, s = "a.id = post.author_id AND a.last_updated > 5"
    ∧ t = "A.Id = post.AUTHOR_ID and a.Last_Updated > 5" ∧ u = "éSeLeCté"
    ∧ w = "updates_where_selected" ∧ IsAllowed s ∧ isCondition t = true ∧ isCondition u = false
    ∧ isCondition w = true
  := by
  refine ⟨_, _, _, _, rfl, rfl, rfl, rfl, ?_, ?_, ?_, ?_⟩
  · apply (isCondition_iff_isAllowed _).1.mp
    decide +kernel
  · rw [(isCondition_iff_isAllowed "a.id = post.author_id AND a.last_updated > 5").2.1]
    · decide +kernel
    · decide +kernel
  · apply (isCondition_iff_isAllowed _).2.2.1 ['é'] "SeLeCt".toList ['é']
    · decide +kernel
    · decide +kernel
    · simp
    · simp
  · have hchars : "updates_where_selected".toList.all isWordChar = true := by decide +kernel
    apply ((isCondition_iff_isAllowed _).2.2.2 (List.all_eq_true.mp hchars)).mpr
    exact ⟨by decide +kernel, by decide +kernel, by decide +kernel, by decide +kernel⟩

end Shortlist.Join
