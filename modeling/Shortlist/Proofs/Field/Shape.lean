import Mathlib.Data.List.TakeWhile
import Shortlist.Field

/-!
# The shape of fields

A field is an identifier, or two of them with a dot between, and its alias and its column are
these identifiers.  Its column is written as the field is, behind the root alias and a dot when
the field has no dot of its own.
-/

namespace Shortlist

theorem isWordChar_of_isIdentifierText {cs : List Char} (h : isIdentifierText cs = true) :
  ∀ c ∈ cs, Text.isWordChar c = true
  := by
  cases cs with
  | nil => cases h
  | cons c cs =>
    rw [isIdentifierText, Bool.and_eq_true, Bool.and_eq_true, List.all_eq_true] at h
    rw [List.forall_mem_cons]
    constructor
    · rw [Text.isWordChar, Char.isAlphanum, Bool.or_right_comm, h.1.1, Bool.true_or]
    · exact h.1.2

/-- A field reference is an identifier, or two of them with a dot between. -/
theorem isFieldReference_cases {s : String} (h : isFieldReference s = true) :
  isIdentifierText s.toList = true
    ∨ ∃ name column, s.toList = name ++ '.' :: column ∧ isIdentifierText name = true
        ∧ isIdentifierText column = true
  := by
  rw [isFieldReference, splitDot] at h
  cases hdrop : s.toList.dropWhile (· != '.') with
  | nil =>
    simp only [hdrop] at h
    exact .inl h
  | cons dot column =>
    simp only [hdrop, Bool.and_eq_true] at h
    have hdot := List.head?_dropWhile_not (· != '.') s.toList
    simp only [hdrop, List.head?_cons, bne_eq_false_iff_eq] at hdot
    have happend := List.takeWhile_append_dropWhile (p := (· != '.')) (l := s.toList)
    rw [hdrop, hdot] at happend
    exact .inr ⟨_, column, happend.symm, h⟩

/-- An identifier has no dot. -/
theorem dot_notMem_of_isIdentifierText {cs : List Char} (h : isIdentifierText cs = true) :
  '.' ∉ cs
  := by
  intro hdot
  have hword := isWordChar_of_isIdentifierText h '.' hdot
  revert hword
  decide

theorem splitDot_of_notMem {cs : List Char} (h : '.' ∉ cs) :
  splitDot cs = (cs, none)
  := by
  have hdrop : cs.dropWhile (· != '.') = [] := by
    rw [List.dropWhile_eq_nil_iff]
    intro c hc
    rw [bne_iff_ne]
    rintro rfl
    exact h hc
  rw [splitDot, hdrop]

theorem splitDot_append {name : List Char} (h : '.' ∉ name) (column : List Char) :
  splitDot (name ++ '.' :: column) = (name, some column)
  := by
  have hname : ∀ c ∈ name, (c != '.') = true := by
    intro c hc
    rw [bne_iff_ne]
    rintro rfl
    exact h hc
  have htake : (name ++ '.' :: column).takeWhile (· != '.') = name := by
    rw [List.takeWhile_append_of_pos hname, List.takeWhile_cons_of_neg (by decide), List.append_nil]
  have hdrop : (name ++ '.' :: column).dropWhile (· != '.') = '.' :: column := by
    rw [List.dropWhile_append_of_pos hname, List.dropWhile_cons_of_neg (by decide)]
  rw [splitDot, hdrop, htake]

/-- The parts of a field: a column, or an alias and a column with a dot between them. -/
inductive Field.HasParts (f : Field) : Prop
  | bare (column : f.column = f.text) (qualifier : f.qualifier = none)
      (identifier : isIdentifier f.text = true)
  | qualified {name column : String} (text : f.text = name ++ "." ++ column)
      (column_eq : f.column = column) (qualifier : f.qualifier = some name)
      (isIdentifier_name : isIdentifier name = true)
      (isIdentifier_column : isIdentifier column = true)

theorem Field.hasParts (f : Field) :
  f.HasParts
  := by
  rcases isFieldReference_cases f.valid with h | ⟨name, column, htext, hname, hcolumn⟩
  · have hsplit := splitDot_of_notMem (dot_notMem_of_isIdentifierText h)
    apply HasParts.bare
    · simp only [Field.column, hsplit, String.ofList_toList]
    · rw [qualifier, hsplit]
    · exact h
  · have hsplit : splitDot f.text.toList = (name, some column) := by
      rw [htext, splitDot_append (dot_notMem_of_isIdentifierText hname)]
    have hjoined : f.text = String.ofList name ++ "." ++ String.ofList column := by
      apply String.toList_inj.mp
      simp [htext]
    apply HasParts.qualified hjoined
    · rw [Field.column, hsplit]
    · rw [qualifier, hsplit]
    · rwa [isIdentifier, String.toList_ofList]
    · rwa [isIdentifier, String.toList_ofList]

/-- A field is qualified when it has an alias. -/
theorem Field.isQualified_iff (f : Field) :
  f.isQualified = true ↔ f.qualifier ≠ none
  := by
  rw [isQualified, List.contains_iff_mem]
  rcases f.hasParts with ⟨-, hnone, h⟩ | ⟨htext, -, hsome, -, -⟩
  · simp [hnone, dot_notMem_of_isIdentifierText h]
  · simp [htext, hsome]

/-- What holds of identifiers and of the dot between them holds of the characters of fields. -/
theorem forall_mem_of_isFieldReference {p : Char → Bool} {s : String}
    (h : isFieldReference s = true) (word : ∀ c, Text.isWordChar c = true → p c = true)
    (dot : p '.' = true) :
  ∀ c ∈ s.toList, p c = true
  := by
  have hidentifier {cs : List Char} (hcs : isIdentifierText cs = true) :
      ∀ c ∈ cs, p c = true := by
    intro c hc
    apply word c (isWordChar_of_isIdentifierText hcs c hc)
  rcases isFieldReference_cases h with h | ⟨name, column, hs, hname, hcolumn⟩
  · apply hidentifier h
  · rw [hs, List.forall_mem_append, List.forall_mem_cons]
    exact ⟨hidentifier hname, dot, hidentifier hcolumn⟩

/-- A qualified field is written as it is, a bare one behind the root alias and a dot. -/
theorem Field.qualify_eq_ok_iff (f : Field) (rootAlias? : Option String) (column : String) :
  f.qualify rootAlias? = .ok column
    ↔ f.isQualified = true ∧ column = f.text
      ∨ f.isQualified = false ∧ ∃ name, rootAlias? = some name ∧ name ≠ ""
        ∧ column = name ++ "." ++ f.text
  := by
  rw [qualify, qualifyText.eq_def, ← isQualified]
  cases f.isQualified with
  | true => simp [eq_comm (a := column)]
  | false =>
    cases rootAlias? with
    | none => simp
    | some name => by_cases hname : name = "" <;> simp [hname, eq_comm (a := column)]

end Shortlist
