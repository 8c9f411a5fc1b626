import Mathlib.Data.List.Forall2
import Shortlist.Proofs.Criteria.Grammar
import Shortlist.Proofs.Text.Name
import Shortlist.Proofs.Text.Words

/-!
# The grammar of fields

Which texts are fields, said without the check that decides it, and what a field is made of.  Its
alias and its column put together again are its text.  Behind the root alias it is a field once
more, with the same column, and is left as it is from then on.  Its parameter has an underscore in
place of the dot and is otherwise its text.
-/

namespace Shortlist

/-- The characters are an ASCII letter or an underscore, and at most 62 ASCII letters, digits or
underscores after it. -/
inductive SpellsIdentifier : List Char → Prop
  | mk {c : Char} {cs : List Char} (start : c.isAlpha = true ∨ c = '_')
      (rest : ∀ d ∈ cs, d.isAlpha = true ∨ d.isDigit = true ∨ d = '_') (short : cs.length ≤ 62) :
      SpellsIdentifier (c :: cs)

/-- The characters are an identifier, or two identifiers with a dot between them. -/
inductive SpellsField : List Char → Prop
  | bare {column : List Char} (h : SpellsIdentifier column) : SpellsField column
  | qualified {name column : List Char} (hname : SpellsIdentifier name)
      (hcolumn : SpellsIdentifier column) : SpellsField (name ++ '.' :: column)

/-! ### Accepted texts -/

theorem isWordChar_iff (c : Char) :
  Text.isWordChar c = true ↔ c.isAlpha = true ∨ c.isDigit = true ∨ c = '_'
  := by simp [Text.isWordChar, Char.isAlphanum, or_assoc]

/-- The check for identifiers decides their grammar. -/
theorem isIdentifierText_iff (cs : List Char) :
  isIdentifierText cs = true ↔ SpellsIdentifier cs
  := by
  constructor
  · intro h
    cases cs with
    | nil => cases h
    | cons c cs =>
      rw [isIdentifierText, Bool.and_eq_true, Bool.and_eq_true, Bool.or_eq_true, beq_iff_eq,
        List.all_eq_true, decide_eq_true_eq] at h
      obtain ⟨⟨start, rest⟩, short⟩ := h
      apply SpellsIdentifier.mk start _ (Nat.le_of_lt_succ short)
      intro d hd
      apply (isWordChar_iff d).mp (rest d hd)
  · rintro ⟨start, rest, short⟩
    rw [isIdentifierText, Bool.and_eq_true, Bool.and_eq_true, Bool.or_eq_true, beq_iff_eq,
      List.all_eq_true, decide_eq_true_eq]
    refine ⟨⟨start, ?_⟩, Nat.lt_succ_of_le short⟩
    intro d hd
    apply (isWordChar_iff d).mpr (rest d hd)

/-- Two identifiers with a dot between them are a field, however the dot is found. -/
theorem isFieldReference_of_append {s : String} {name column : List Char}
    (hs : s.toList = name ++ '.' :: column) (hname : isIdentifierText name = true)
    (hcolumn : isIdentifierText column = true) :
  isFieldReference s = true
  := by
  have hsplit := splitDot_append (dot_notMem_of_isIdentifierText hname) column
  simp only [isFieldReference, hs, hsplit, hname, hcolumn, Bool.and_self]

/-- The check for references to fields decides their grammar. -/
theorem isFieldReference_iff (s : String) :
  isFieldReference s = true ↔ SpellsField s.toList
  := by
  constructor
  · intro h
    rcases isFieldReference_cases h with h | ⟨name, column, hs, hname, hcolumn⟩
    · exact .bare ((isIdentifierText_iff _).mp h)
    · rw [hs]
      exact .qualified ((isIdentifierText_iff _).mp hname) ((isIdentifierText_iff _).mp hcolumn)
  · intro h
    generalize hs : s.toList = cs at h
    cases h with
    | bare h =>
      have hcolumn := (isIdentifierText_iff _).mpr h
      have hsplit := splitDot_of_notMem (dot_notMem_of_isIdentifierText hcolumn)
      simp only [isFieldReference, hs, hsplit, hcolumn]
    | qualified hname hcolumn =>
      rw [← isIdentifierText_iff] at hname hcolumn
      apply isFieldReference_of_append hs hname hcolumn

namespace Field

/-- A text is parsed as a field exactly when it has the grammar of one. -/
theorem exists_parse_eq_ok_iff (s : String) :
  (∃ f, parse s = .ok f) ↔ SpellsField s.toList
  := by
  rw [← isFieldReference_iff]
  simp only [parse_eq_ok_iff]
  constructor
  · rintro ⟨f, rfl⟩
    exact f.valid
  · intro valid
    use ⟨s, valid⟩

/-! ### Qualified columns -/

variable (f : Field)

/-- The alias, if there is one, and the column with a text between them. -/
def joined (separator : String) : String :=
  match f.qualifier with
  | none => f.column
  | some name => name ++ separator ++ f.column

/-- The parts of a field with the dot between them are its text. -/
theorem joined_dot :
  f.joined "." = f.text
  := by
  rw [joined]
  rcases f.hasParts with ⟨hcolumn, hqualifier, -⟩ | ⟨htext, hcolumn, hqualifier, -, -⟩
  · rw [hqualifier, hcolumn]
  · rw [hqualifier, hcolumn, htext]

/-- A field with an alias of its own is left as it is. -/
theorem qualify_of_qualifier {name : String} (h : f.qualifier = some name)
    (rootAlias? : Option String) :
  f.qualify rootAlias? = .ok f.text
  := by
  apply (f.qualify_eq_ok_iff ..).mpr
  left
  rw [isQualified_iff, h]
  exact ⟨Option.some_ne_none name, rfl⟩

/-- Only a bare field needs a root alias. -/
theorem exists_qualify_none_eq_error_iff :
  (∃ e, f.qualify none = .error e) ↔ f.qualifier = none
  := by
  constructor
  · rintro ⟨e, he⟩
    cases h : f.qualifier with
    | none => rfl
    | some name =>
      rw [f.qualify_of_qualifier h] at he
      cases he
  · intro h
    have hbare : f.isQualified = false := by
      rw [← Bool.not_eq_true, isQualified_iff, h]
      simp
    use .missingAlias
    rw [qualify, qualifyText, ← isQualified, hbare]
    rfl

/-- A field behind an alias is a field with an alias and the same column. -/
theorem exists_field_of_qualify {name : String} (hname : isIdentifier name = true) :
  ∃ g : Field, f.qualify (some name) = .ok g.text ∧ g.qualifier ≠ none ∧ g.column = f.column
  := by
  rcases f.hasParts with ⟨hcolumn, hqualifier, hidentifier⟩ | ⟨htext, -, hqualifier, -, -⟩
  · have hlist : (name ++ "." ++ f.text).toList = name.toList ++ '.' :: f.text.toList := by simp
    have hsplit : splitDot (name ++ "." ++ f.text).toList = (name.toList, some f.text.toList) := by
      rw [hlist, splitDot_append (dot_notMem_of_isIdentifierText hname)]
    use ⟨_, isFieldReference_of_append hlist hname hidentifier⟩
    refine ⟨?_, ?_, ?_⟩
    · apply (f.qualify_eq_ok_iff ..).mpr
      right
      refine ⟨?_, name, rfl, ?_, rfl⟩
      · rw [← Bool.not_eq_true, isQualified_iff, hqualifier]
        simp
      · rintro rfl
        cases hname
    · simp only [qualifier, hsplit]
      apply Option.some_ne_none
    · rw [hcolumn]
      simp only [column, hsplit, String.ofList_toList]
  · use f, f.qualify_of_qualifier hqualifier _
    rw [hqualifier]
    exact ⟨Option.some_ne_none _, rfl⟩

/-! ### Parameters -/

/-- The character as it stands in a parameter. -/
def underscored (c : Char) : Char := if c = '.' then '_' else c

/-- The parameter of a field is its text, character for character, with underscores for dots. -/
theorem toList_parameter :
  f.parameter.toList = f.text.toList.map underscored
  := String.toList_ofList

theorem map_underscored_of_notMem {cs : List Char} (h : '.' ∉ cs) :
  cs.map underscored = cs
  := by
  apply Eq.trans (List.map_congr_left _) (List.map_id cs)
  intro c hc
  apply if_neg
  rintro rfl
  exact h hc

/-- The parameter of a field is its parts with an underscore between them. -/
theorem parameter_eq_joined :
  f.parameter = f.joined "_"
  := by
  apply String.toList_inj.mp
  rw [toList_parameter, joined]
  rcases f.hasParts with ⟨hcolumn, hqualifier, h⟩ | ⟨htext, hcolumn, hqualifier, hname, h⟩
  · rw [hqualifier, hcolumn, map_underscored_of_notMem (dot_notMem_of_isIdentifierText h)]
  · rw [hqualifier, hcolumn, htext]
    simp [map_underscored_of_notMem (dot_notMem_of_isIdentifierText h),
      map_underscored_of_notMem (dot_notMem_of_isIdentifierText hname), underscored]

theorem isWordChar_underscored_iff (c : Char) :
  Text.isWordChar (underscored c) = true ↔ Text.isWordChar c = true ∨ c = '.'
  := by
  rw [underscored]
  split
  next h => simp [h, Text.isWordChar]
  next h => simp [h]

/-- There are only word characters in a parameter. -/
theorem isWordChar_of_mem_parameter :
  ∀ c ∈ f.parameter.toList, Text.isWordChar c = true
  := by
  rw [toList_parameter, List.forall_mem_map]
  apply forall_mem_of_isFieldReference f.valid
  · intro c hc
    apply (isWordChar_underscored_iff c).mpr (.inl hc)
  · decide

theorem isDigit_eq_false_of_startsName {c : Char} (h : Text.startsName c = true) :
  c.isDigit = false
  := by
  rw [Text.startsName, Bool.or_eq_true, beq_iff_eq] at h
  rcases h with halpha | rfl
  · have hrange := Text.toNat_of_isAlpha halpha
    rw [← Bool.not_eq_true]
    intro hdigit
    have hrange' := Text.toNat_of_isDigit hdigit
    omega
  · decide

/-- A parameter starts as a name does. -/
theorem startsName_of_mem_head_parameter :
  ∀ c ∈ f.parameter.toList.head?, Text.startsName c = true
  := by
  have hstart := (isName_of_isFieldReference f.valid).start
  rw [toList_parameter, List.head?_map]
  cases hhead : f.text.toList.head? with
  | none => simp
  | some c =>
    rw [hhead, Option.any_some] at hstart
    have hdot : c ≠ '.' := by
      rintro rfl
      revert hstart
      decide
    rintro _ ⟨⟩
    rwa [underscored, if_neg hdot]

/-- Two fields have the same parameter when their texts are the same up to dots and underscores in
the same places. -/
theorem parameter_eq_iff (g : Field) :
  f.parameter = g.parameter
    ↔ List.Forall₂ (fun c d => c = d ∨ c ∈ ['.', '_'] ∧ d ∈ ['.', '_']) f.text.toList g.text.toList
  := by
  have hchar (c d : Char) :
      underscored c = underscored d ↔ c = d ∨ c ∈ ['.', '_'] ∧ d ∈ ['.', '_'] := by
    rw [underscored, underscored]
    split_ifs <;> simp_all [eq_comm]
  rw [← String.toList_inj, toList_parameter, toList_parameter, ← List.forall₂_eq_eq_eq,
    List.forall₂_map_left_iff, List.forall₂_map_right_iff]
  simp only [hchar]

/-- A text is a field exactly when it is an identifier, or two with a dot between them.  The alias
and the column of a field, put together, are its text.  Behind a root alias it is a field again,
with an alias and the same column, and this one is left as it is by any alias and by none; without
a root alias it is refused exactly when it has no alias.  Its parameter has the characters of an
identifier, as many as the field, and starts with no digit; it is the alias and the column with an
underscore between them, and two fields share it exactly when their texts are the same up to dots
and underscores. -/
theorem parse_iff_spellsField (s : String) :
  ((∃ f, parse s = .ok f) ↔ SpellsField s.toList)
    ∧ ∀ f, parse s = .ok f →
      f.text = s ∧ f.joined "." = s
        ∧ (∀ name, isIdentifier name = true → ∃ column g, f.qualify (some name) = .ok column
            ∧ parse column = .ok g ∧ g.qualifier ≠ none ∧ g.column = f.column
            ∧ ∀ rootAlias?, g.qualify rootAlias? = .ok column)
        ∧ ((∃ e, f.qualify none = .error e) ↔ f.qualifier = none)
        ∧ (∀ c ∈ f.parameter.toList, c.isAlpha = true ∨ c.isDigit = true ∨ c = '_')
        ∧ (∀ c ∈ f.parameter.toList.head?, c.isDigit = false)
        ∧ f.parameter.length = s.length
        ∧ f.parameter = f.joined "_"
        ∧ ∀ t g, parse t = .ok g → (f.parameter = g.parameter
            ↔ List.Forall₂ (fun c d => c = d ∨ c ∈ ['.', '_'] ∧ d ∈ ['.', '_']) s.toList t.toList)
  := by
  use exists_parse_eq_ok_iff s
  intro f hf
  obtain rfl := (parse_eq_ok_iff s f).mp hf
  refine ⟨rfl, f.joined_dot, ?_, f.exists_qualify_none_eq_error_iff, ?_, ?_, ?_,
    f.parameter_eq_joined, ?_⟩
  · intro name hname
    obtain ⟨g, hg, hqualifier, hcolumn⟩ := f.exists_field_of_qualify hname
    refine ⟨g.text, g, hg, (parse_eq_ok_iff _ g).mpr rfl, hqualifier, hcolumn, ?_⟩
    obtain ⟨name', hname'⟩ := Option.ne_none_iff_exists'.mp hqualifier
    apply g.qualify_of_qualifier hname'
  · intro c hc
    apply (isWordChar_iff c).mp (f.isWordChar_of_mem_parameter c hc)
  · intro c hc
    apply isDigit_eq_false_of_startsName (f.startsName_of_mem_head_parameter c hc)
  · rw [← String.length_toList, toList_parameter, List.length_map, String.length_toList]
  · intro t g hg
    obtain rfl := (parse_eq_ok_iff t g).mp hg
    apply f.parameter_eq_iff g

/-- The name of an author, which shares its parameter with a bare field, behind the alias of a
post; and a text with two dots. -/
theorem parse_iff_spellsField_author :
  ∃ f g : Field, parse "author.name" = .ok f ∧ parse "author_name" = .ok g
    ∧ (¬ ∃ h, parse "a.b.c" = .ok h)
    ∧ f.joined "." = "author.name"
    ∧ (∃ column h, g.qualify (some "post") = .ok column ∧ parse column = .ok h
        ∧ h.qualifier ≠ none ∧ h.column = g.column)
    ∧ (∃ e, g.qualify none = .error e)
    ∧ f.parameter = g.parameter
  := by
  have hf : parse "author.name" = .ok ⟨"author.name", by decide⟩ := rfl
  have hg : parse "author_name" = .ok ⟨"author_name", by decide⟩ := rfl
  obtain ⟨-, hjoined, -, -, -, -, -, -, hshared⟩ := (parse_iff_spellsField _).2 _ hf
  obtain ⟨-, -, hqualify, hbare, -⟩ := (parse_iff_spellsField _).2 _ hg
  refine ⟨_, _, hf, hg, ?_, hjoined, ?_, hbare.mpr (by decide), ?_⟩
  · rintro ⟨h, hh⟩
    cases hh
  · obtain ⟨column, h, hcolumn, hh, hqualifier, heq, -⟩ := hqualify "post" (by decide)
    exact ⟨column, h, hcolumn, hh, hqualifier, heq⟩
  · apply (hshared "author_name" _ hg).mpr
    decide

end Field

end Shortlist
