import Mathlib
import Shortlist.Handlers
import Shortlist.Proofs.Field.Grammar

/-!
# Keys of names

A character that is no ASCII letter or digit cuts a name in two, and the key of the name is made
of the keys of the two.  A run of letters and digits is its own key but for a capital first
letter, so a key is its own key.  A field and its parameter have the same key: they differ in the
character that cuts them.
-/

namespace Shortlist.Handlers

/-- What comes after a character that is no letter or digit begins a new run. -/
theorem keyFrom_append_cons {c : Char} (hc : c.isAlphanum = false) (inRun : Bool)
    (cs ds : List Char) :
  keyFrom inRun (cs ++ c :: ds) = keyFrom inRun cs ++ keyFrom false ds
  := by
  induction cs generalizing inRun with
  | nil => simp [keyFrom, hc]
  | cons d cs ih =>
    rw [List.cons_append, keyFrom, keyFrom]
    split
    · rw [ih, List.cons_append]
    · apply ih

theorem keyOf_append {c : Char} (hc : c.isAlphanum = false) (s t : String) :
  keyOf (s ++ String.singleton c ++ t) = keyOf s ++ keyOf t
  := by
  have hlist : (s ++ String.singleton c ++ t).toList = s.toList ++ c :: t.toList := by simp
  rw [keyOf, hlist, keyFrom_append_cons hc, String.ofList_append, keyOf, keyOf]

/-! ### Runs -/

/-- A run goes on as it is. -/
theorem keyFrom_true_of_forall {cs : List Char} (h : ∀ c ∈ cs, c.isAlphanum = true) :
  keyFrom true cs = cs
  := by
  induction cs with
  | nil => rfl
  | cons c cs ih =>
    obtain ⟨hc, hcs⟩ := List.forall_mem_cons.mp h
    rw [keyFrom, if_pos hc, if_pos rfl, ih hcs]

/-- A run is its own key, with a capital first letter. -/
theorem keyFrom_false_of_forall {c : Char} {cs : List Char}
    (h : ∀ d ∈ c :: cs, d.isAlphanum = true) :
  keyFrom false (c :: cs) = c.toUpper :: cs
  := by
  obtain ⟨hc, hcs⟩ := List.forall_mem_cons.mp h
  rw [keyFrom, if_pos hc, if_neg Bool.false_ne_true, keyFrom_true_of_forall hcs]

theorem isAlphanum_toUpper {c : Char} (h : c.isAlphanum = true) :
  c.toUpper.isAlphanum = true
  := by
  cases hlower : c.isLower with
  | true =>
    have halpha : c.isAlpha = true := by rw [Char.isAlpha, hlower, Bool.or_true]
    rw [Char.isAlphanum, Char.isAlpha_toUpper_eq_isAlpha, halpha, Bool.true_or]
  | false =>
    rwa [Char.toUpper_eq_of_not_isLower]
    rw [hlower]
    decide

theorem isAlphanum_of_mem_keyFrom (inRun : Bool) (cs : List Char) :
  ∀ c ∈ keyFrom inRun cs, c.isAlphanum = true
  := by
  induction cs generalizing inRun with
  | nil => simp [keyFrom]
  | cons d cs ih =>
    rw [keyFrom]
    split
    next hd =>
      rw [List.forall_mem_cons]
      constructor
      · cases inRun with
        | true => exact hd
        | false => apply isAlphanum_toUpper hd
      · apply ih
    next => apply ih

/-- A key starts with no small letter. -/
theorem isLower_of_mem_head_keyFrom (cs : List Char) :
  ∀ c ∈ (keyFrom false cs).head?, c.isLower = false
  := by
  induction cs with
  | nil => simp [keyFrom]
  | cons d cs ih =>
    rw [keyFrom]
    split
    · rintro _ ⟨⟩
      apply Char.isLower_toUpper_eq_false
    · apply ih

/-- A key is its own key. -/
theorem keyOf_keyOf (s : String) :
  keyOf (keyOf s) = keyOf s
  := by
  have hhead := isLower_of_mem_head_keyFrom s.toList
  have hrun := isAlphanum_of_mem_keyFrom false s.toList
  rw [keyOf, keyOf, String.toList_ofList]
  congr 1
  cases hkey : keyFrom false s.toList with
  | nil => rfl
  | cons c cs =>
    rw [hkey] at hhead hrun
    rw [keyFrom_false_of_forall hrun, Char.toUpper_eq_of_not_isLower]
    rw [hhead c rfl]
    decide

/-! ### Fields -/

/-- The dot of a field and the underscore of its parameter both cut the name. -/
theorem keyOf_parameter (f : Field) :
  keyOf f.parameter = keyOf f.text
  := by
  rw [f.parameter_eq_joined, ← f.joined_dot, Field.joined, Field.joined]
  cases f.qualifier with
  | none => rfl
  | some name =>
    have hdot := keyOf_append (c := '.') rfl name f.column
    have hunderscore := keyOf_append (c := '_') rfl name f.column
    exact hunderscore.trans hdot.symm

end Shortlist.Handlers
