import Shortlist.Proofs.Field.Shape
import Shortlist.Proofs.Text.Scanner

/-!
# Plain texts

A plain text has only harmless characters, so it may be written into a statement as it is.
Identifiers and fields are plain, also once they are qualified.
-/

namespace Shortlist

namespace Text

/-- Whether a text has only harmless characters. -/
def isPlain (s : String) : Bool :=
  s.toList.all isHarmless

theorem isPlain_iff {s : String} :
  isPlain s = true ↔ ∀ c ∈ s.toList, isHarmless c = true
  := List.all_eq_true

/-- Plain texts put together are plain, and parts of plain texts are. -/
@[simp]
theorem isPlain_append (s t : String) :
  isPlain (s ++ t) = (isPlain s && isPlain t)
  := by rw [isPlain, String.toList_append, List.all_append, isPlain, isPlain]

/-- Plain texts with a plain separator between them are plain. -/
theorem isPlain_intercalate
    {separator : String} {texts : List String} (hseparator : isPlain separator = true)
    (h : ∀ s ∈ texts, isPlain s = true) :
  isPlain (separator.intercalate texts) = true
  := by
  induction texts with
  | nil => simp [isPlain]
  | cons s texts ih =>
    obtain ⟨hs, htexts⟩ := List.forall_mem_cons.mp h
    cases texts with
    | nil => rw [String.intercalate_singleton, hs]
    | cons t texts =>
      rw [String.intercalate_cons_cons, isPlain_append, isPlain_append, hs, hseparator,
        ih htexts, Bool.and_self, Bool.and_self]

/-- A plain text is guarded without strings. -/
theorem Guarded.of_isPlain {s : String} (h : isPlain s = true) :
  Guarded s.toList []
  := .of_harmless h

/-- A plain text that is not empty ends in a harmless character. -/
theorem GuardedAfter.guarded_append
    {s : String} {w : List Char} {ss : List String} (hw : GuardedAfter w ss)
    (hs : isPlain s = true) (hne : s.toList ≠ []) :
  Guarded (s.toList ++ w) ss
  := by
  obtain hnil | ⟨cs, c, hconcat⟩ := List.eq_nil_or_concat s.toList
  · cases hne hnil
  · rw [List.concat_eq_append] at hconcat
    rw [isPlain, hconcat, List.all_append, List.all_cons, List.all_nil, Bool.and_true,
      Bool.and_eq_true] at hs
    rw [hconcat, List.append_assoc, List.singleton_append]
    apply (Guarded.of_harmless hs.1).append (hw c hs.2)

end Text

/-! ### Fields -/

/-- Identifiers are plain. -/
theorem isPlain_of_isIdentifier {s : String} (h : isIdentifier s = true) :
  Text.isPlain s = true
  := by
  rw [Text.isPlain_iff]
  intro c hc
  apply Text.isHarmless_of_isWordChar (isWordChar_of_isIdentifierText h c hc)

/-- Fields are plain, with an alias or without. -/
theorem isPlain_of_isFieldReference {s : String} (h : isFieldReference s = true) :
  Text.isPlain s = true
  := by
  rw [Text.isPlain_iff]
  apply forall_mem_of_isFieldReference h
  · intro c
    apply Text.isHarmless_of_isWordChar
  · decide

namespace Field

theorem isPlain_text (f : Field) :
  Text.isPlain f.text = true
  := isPlain_of_isFieldReference f.valid

/-- A qualified field is plain when the root alias is. -/
theorem isPlain_of_qualify
    {f : Field} {rootAlias? : Option String} {column : String}
    (halias : ∀ name, rootAlias? = some name → Text.isPlain name = true)
    (h : f.qualify rootAlias? = .ok column) :
  Text.isPlain column = true
  := by
  rcases (f.qualify_eq_ok_iff rootAlias? column).mp h with ⟨-, rfl⟩ | ⟨-, name, rfl, -, rfl⟩
  · apply isPlain_text
  · rw [Text.isPlain_append, Text.isPlain_append, halias name rfl, isPlain_text]
    decide

end Field

end Shortlist
