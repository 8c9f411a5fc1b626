import Shortlist.Proofs.Field.Shape
import Shortlist.Proofs.Text.Forced

/-!
# Names in statements

The tables, aliases and columns of a statement are names: word characters and dots, the first of
which is no digit.  A name ends before the first character of another kind.
-/

namespace Shortlist

namespace Text

/-- Whether a name may start with the character. -/
def startsName (c : Char) : Bool := c.isAlpha || c == '_'

/-- Whether the character may stand in a name. -/
def isNameChar (c : Char) : Bool := isWordChar c || c == '.'

/-- The text is made of word characters and dots, and starts with a letter or an underscore. -/
structure IsName (s : String) : Prop where
  start : s.toList.head?.any startsName = true
  chars : ∀ c ∈ s.toList, isNameChar c = true

/-- A name is read off a text up to the first character that no name has. -/
theorem IsName.forces {s t : String} (hs : IsName s) (ht : IsName t) :
  Forces (Stops isNameChar) s.toList t.toList (s = t)
  := (Forces.run hs.chars ht.chars).imp String.toList_inj.mp

/-- A name does not begin with a character with which names do not start. -/
theorem IsName.append_ne_cons {s : String} (hs : IsName s) {c : Char}
    (hc : startsName c = false) (r t : List Char) :
  s.toList ++ r ≠ c :: t
  := by
  have hstart := hs.start
  intro h
  cases hcs : s.toList with
  | nil => simp [hcs] at hstart
  | cons d ds =>
    rw [hcs] at h hstart
    obtain rfl := (List.cons.inj h).1
    simp [hc] at hstart

end Text

open Text

/-! ### Identifiers and fields -/

/-- An identifier starts as a name does. -/
theorem startsName_of_isIdentifierText {cs : List Char} (h : isIdentifierText cs = true) :
  cs.head?.any startsName = true
  := by
  cases cs with
  | nil => cases h
  | cons c cs =>
    rw [isIdentifierText, Bool.and_eq_true, Bool.and_eq_true] at h
    exact h.1.1

theorem isNameChar_of_isWordChar {c : Char} (h : isWordChar c = true) :
  isNameChar c = true
  := by rw [isNameChar, h, Bool.true_or]

/-- Identifiers are names. -/
theorem isName_of_isIdentifier {s : String} (h : isIdentifier s = true) :
  IsName s
  := by
  constructor
  · apply startsName_of_isIdentifierText h
  · intro c hc
    apply isNameChar_of_isWordChar (isWordChar_of_isIdentifierText h c hc)

/-- References to fields are names. -/
theorem isName_of_isFieldReference {s : String} (h : isFieldReference s = true) :
  IsName s
  := by
  constructor
  · rcases isFieldReference_cases h with h | ⟨name, column, hs, hname, -⟩
    · apply startsName_of_isIdentifierText h
    · have hstart := startsName_of_isIdentifierText hname
      rw [hs]
      cases name with
      | nil => cases hstart
      | cons c name => exact hstart
  · apply forall_mem_of_isFieldReference h
    · intro c
      apply isNameChar_of_isWordChar
    · decide

/-- A name before a dot and a name. -/
theorem Text.IsName.append_dot {s t : String} (hs : IsName s) (ht : IsName t) :
  IsName (s ++ "." ++ t)
  := by
  have hlist : (s ++ "." ++ t).toList = s.toList ++ '.' :: t.toList := by simp
  constructor
  · have hstart := hs.start
    rw [hlist]
    cases hcs : s.toList with
    | nil => simp [hcs] at hstart
    | cons c cs => rwa [hcs] at hstart
  · rw [hlist, List.forall_mem_append, List.forall_mem_cons]
    exact ⟨hs.chars, by decide, ht.chars⟩

/-- A qualified column is a name when the root alias is one. -/
theorem Field.isName_of_qualify
    {f : Field} {rootAlias? : Option String} {column : String}
    (halias : ∀ name, rootAlias? = some name → IsName name)
    (h : f.qualify rootAlias? = .ok column) :
  IsName column
  := by
  have hfield := isName_of_isFieldReference f.valid
  rcases (f.qualify_eq_ok_iff rootAlias? column).mp h with ⟨-, rfl⟩ | ⟨-, name, rfl, -, rfl⟩
  · exact hfield
  · apply (halias name rfl).append_dot hfield

end Shortlist
