import Shortlist.Proofs.Criteria.Decoded
import Shortlist.Proofs.Criteria.Reports

/-!
# Reported parts of options

Each part of the reader reports the violations of its part of the grammar: numbers, order terms,
operands, and the members of filters and operators.
-/

namespace Shortlist

/-! ### Options that have one place -/

namespace Criteria

/-- A number that is not read is the fault of the option it was given for. -/
theorem readInteger_blames (path : String) (j : Json) :
  Blames (readInteger path j) (.option path)
  := by
  intro e he
  rw [readInteger.eq_def] at he
  split at he
  · split at he <;> cases he
    rfl
  · split at he <;> cases he
    rfl
  · cases he
    rfl

/-- A number out of range is the fault of the option it was given for. -/
theorem toUInt32_blames (path : String) (n : Int64) :
  Blames (toUInt32 path n) (.option path)
  := by
  intro e he
  rw [toUInt32] at he
  split at he <;> cases he
  rfl

/-- Whatever numbers are refused, a reader of numbers of 32 bits blames one path. -/
theorem readInteger_bind_blames {refuses : Int64 → Prop} [DecidablePred refuses] (path : String)
    (fault : OptionFault) (j : Json) :
  Blames
    (readInteger path j >>= fun i =>
      if refuses i then .error (.option path fault) else toUInt32 path i)
    (.option path)
  := by
  apply (readInteger_blames path j).bind
  intro i e he
  split at he
  · cases he
    rfl
  · apply toUInt32_blames path i e he

theorem readItems_blames (j : Json) :
  Blames (readItems j) (.option "items")
  := by apply readInteger_bind_blames

theorem readPage_blames (j : Json) :
  Blames (readPage j) (.option "page")
  := by apply readInteger_bind_blames

/-- A text that is no field is the fault of the option in which it stands. -/
theorem readField_blames (path s : String) :
  Blames (readField path s) (.option path)
  := by
  intro e he
  obtain ⟨_, -, rfl⟩ := (mapError_eq_error_iff ..).mp he
  rfl

/-- A field of an order term that is missing or bad is the fault of the option it is read for. -/
theorem readOrderField_blames (path : String) (o : Option Json) :
  Blames (readOrderField path o) (.option path)
  := by
  intro e he
  rw [readOrderField.eq_def] at he
  split at he
  · apply readField_blames _ _ e he
  all_goals
    cases he
    rfl

/-- A bad direction of an order term is the fault of the option it is read for. -/
theorem readDirection_blames (path : String) (o : Option Json) :
  Blames (readDirection path o) (.option path)
  := by
  intro e he
  rw [readDirection.eq_def] at he
  split at he
  · split at he <;> cases he
    rfl
  · cases he
  · cases he
  · cases he
    rfl

/-- A tag of no operator is the fault of the option in which it stands. -/
theorem readOperator_blames (path : String) (j : Json) :
  Blames (readOperator path j) (.option path)
  := by
  intro e he
  rw [readOperator.eq_def] at he
  split at he
  · split at he <;> cases he
    rfl
  · cases he
    rfl

/-- The grouping has one place, the whole option. -/
theorem readGrouping_blames (j : Json) :
  Blames (readGrouping j) (.option "group_by")
  := by
  intro e he
  rw [readGrouping.eq_def] at he
  split at he
  · split at he
    · cases he
    · apply Blames.map (readField_blames _ _) some e he
  · cases he
    rfl

theorem readSkipNull_blames (j : Json) :
  Blames (readSkipNull j) (.option "skip_null_values")
  := by
  intro e he
  rw [readSkipNull.eq_def] at he
  split at he <;> cases he
  rfl

/-- A text is that of a field when it is well formed. -/
theorem exists_eq_text_iff (s : String) :
  (∃ f : Field, s = f.text) ↔ isFieldReference s = true
  := by
  constructor
  · rintro ⟨f, rfl⟩
    exact f.valid
  · intro valid
    use ⟨s, valid⟩

/-- A text is read as a field exactly when it is a reference to one. -/
theorem exists_readField_iff (path s : String) :
  (∃ f, readField path s = .ok f) ↔ isFieldReference s = true
  := by simp only [readField_eq_ok_iff, exists_eq_text_iff]

/-! ### The order -/

/-- The field of an order term is read exactly when it is a text that refers to a field. -/
theorem exists_readOrderField_iff (path : String) (o : Option Json) :
  (∃ f, readOrderField path o = .ok f)
    ↔ ∃ s, o = some (.string s) ∧ isFieldReference s = true
  := by
  simp only [readOrderField_eq_ok_iff, ← exists_eq_text_iff]
  constructor
  · rintro ⟨f, rfl⟩
    exact ⟨f.text, rfl, f, rfl⟩
  · rintro ⟨_, rfl, f, rfl⟩
    exact ⟨f, rfl⟩

/-- The direction of an order term is read exactly when the grammar allows it. -/
theorem exists_readDirection_iff (path : String) (members : List (String × Json)) :
  (∃ d, readDirection path (Keyed.get? "dir" members) = .ok d)
    ↔ Allows members "dir" fun j => ∃ token ∈ ["asc", "desc", "ASC", "DESC"], j = .string token
  := by simp only [readDirection_eq_ok_iff, exists_isDirection_iff]

/-- A place in the `i`-th order term lies under the `i`-th item of the order. -/
theorem TermViolates.liesIn {i : Nat} {j : Json} {p : Place} (h : TermViolates i j p) :
  p.LiesIn [4] i
  := by cases h <;> exact ⟨_, rfl⟩

/-- Of an order term the members are checked first, then the field, then the direction. -/
theorem readOrderTerm_reports (i : Nat) (j : Json) :
  Reports (readOrderTerm (Place.termPath i) j) (TermViolates i j)
  := by
  rw [readOrderTerm.eq_def]
  split
  next members =>
    have hbad (name : String) : (name != "by" && name != "dir") = true
        ↔ name ≠ "by" ∧ name ≠ "dir" := by
      simp
    split
    next name _ hfind =>
      obtain ⟨k, first⟩ : ∃ k, (Place.termMember i k name).IsFirst
          (TermViolates i (.object members)) := by
        apply Place.exists_isFirst_of_find? hfind (n := [4, i, 0])
        · exact fun _ _ => ⟨[], rfl⟩
        · intro k name j hget bad
          apply TermViolates.member hget ((hbad name).mp bad)
        · intro q hq
          cases hq with
          | term h => cases h members rfl
          | member hget unknown => exact .inl ⟨_, _, _, hget, (hbad _).mpr unknown, rfl⟩
          | field _ => exact .inr fun _ _ => by simp [Place.rank, List.cons_lt_cons_iff]
          | direction _ => exact .inr fun _ _ => by simp [Place.rank, List.cons_lt_cons_iff]
      apply Reports.of_error first rfl
    next hfind =>
      -- no member is unknown, so what is left to violate is the field and the direction
      have known := List.find?_eq_none.mp hfind
      have hfield := Reports.of_blames (p := .termField i)
        (readOrderField_blames _ (Keyed.get? "by" members)) (exists_readOrderField_iff ..)
      have hdirection := Reports.of_blames (p := .termDirection i)
        (readDirection_blames _ (Keyed.get? "dir" members)) (exists_readDirection_iff _ members)
      apply Reports.congr
      · apply hfield.bind (fun field _ => hdirection.map (OrderTerm.mk field))
        rintro _ _ ⟨rfl, -⟩ ⟨rfl, -⟩
        simp [Place.rank, List.cons_lt_cons_iff]
      · intro p
        constructor
        · rintro (⟨rfl, h⟩ | ⟨rfl, h⟩)
          · exact .field h
          · exact .direction h
        · intro h
          cases h with
          | term h => cases h members rfl
          | member hget unknown =>
            cases known _ (List.mem_of_getElem? hget) ((hbad _).mpr unknown)
          | field h => exact .inl ⟨rfl, h⟩
          | direction h => exact .inr ⟨rfl, h⟩
  next hj =>
    apply Reports.of_only (p := .term i)
    · apply TermViolates.term hj
    · intro q hq
      cases hq with
      | term _ => rfl
      | _ => cases hj _ rfl
    · rfl

/-- The order terms of a list report the first term that violates the grammar. -/
theorem readOrderTerms_reports (i : Nat) (js : List Json) :
  Reports (readOrderTerms i js) (Along (fun n => TermViolates (i + n)) js)
  := by
  induction js generalizing i with
  | nil => apply Reports.of_ok (not_along_nil _)
  | cons j js ih =>
    rw [readOrderTerms]
    apply (readOrderTerm_reports i j).cons (fun _ _ _ h => h.liesIn)
    intro t
    apply (ih (i + 1)).map

/-! ### Operands -/

/-- The places at which the tree violates the grammar of operands that is found at some indices in
the operand of member `k`. -/
def OperandViolates (k : Nat) (name : String) (indices : List Nat) (j : Json) (p : Place) : Prop :=
  ∃ rest members, j.at? rest = some (.object members) ∧ ¬ Json.HasId members
    ∧ p = .operand k name (indices ++ rest)

/-- Of the objects that are met in an operand the first is reported that has no id. -/
theorem ofJson_reports (k : Nat) (name : String) (indices : List Nat) (j : Json) :
  Reports (Operand.ofJson (Place.operandPath name indices) j) (OperandViolates k name indices j)
  := by
  constructor
  · rintro v hv p ⟨rest, members, hat, noId, -⟩
    have hasIds := (Operand.exists_ofJson_iff ..).mp ⟨v, hv⟩
    apply (Json.hasIds_iff_not_lacksIdAt j).mp hasIds rest ⟨members, hat, noId⟩
  · intro e he
    obtain ⟨rest, first, rfl⟩ := (Operand.ofJson_eq_error_iff ..).mp he
    obtain ⟨members, hat, noId⟩ := first.lacks
    refine ⟨.operand k name (indices ++ rest), ⟨⟨rest, members, hat, noId, rfl⟩, ?_⟩, ?_⟩
    · rintro q ⟨others, members', hat', noId', rfl⟩ hne
      have hlt := first.first others ⟨members', hat', noId'⟩ (by rintro rfl; cases hne rfl)
      change (5 :: k :: 1 :: indices) ++ rest < (5 :: k :: 1 :: indices) ++ others
      apply List.append_left_lt hlt
    · rw [Place.culprit, Place.operandPath, Place.operandPath, List.foldl_append]
      rfl

/-! ### Filters -/

/-- The name of a filter that is no field is reported as the field. -/
theorem parse_blames (s : String) :
  Blames (Field.parse s) (.field s)
  := by
  intro e he
  obtain ⟨_, -, rfl⟩ := (mapError_eq_error_iff ..).mp he
  rfl

theorem exists_parse_iff (s : String) :
  (∃ f, Field.parse s = .ok f) ↔ isFieldReference s = true
  := by simp only [Field.parse_eq_ok_iff, exists_eq_text_iff]

/-- A place in the `k`-th filter lies under the `k`-th member of the filters. -/
theorem FilterViolates.liesIn {k : Nat} {m : String × Json} {p : Place}
    (h : FilterViolates k m p) :
  p.LiesIn [5] k
  := by cases h <;> exact ⟨_, rfl⟩

/-- Of a member of the filters the name is checked before the operand. -/
theorem readFilter_reports (k : Nat) (name : String) (j : Json) :
  Reports
    (Field.parse name >>= fun field =>
      Operand.ofJson ("filters." ++ name) j >>= fun v => pure (Filter.mk field v))
    (FilterViolates k (name, j))
  := by
  have hkey := Reports.of_blames (p := .filterKey k name) (parse_blames name)
    (exists_parse_iff name)
  apply Reports.congr
  · apply hkey.bind fun field _ => (ofJson_reports k name [] j).map (Filter.mk field)
    rintro _ _ ⟨rfl, -⟩ ⟨rest, -, -, -, rfl⟩
    simp [Place.rank, List.cons_lt_cons_iff]
  · intro p
    constructor
    · rintro (⟨rfl, h⟩ | ⟨rest, members, hat, noId, rfl⟩)
      · exact .key h
      · exact .operand hat noId
    · intro h
      cases h with
      | key h => exact .inl ⟨rfl, h⟩
      | operand hat noId => exact .inr ⟨_, _, hat, noId, rfl⟩

/-- The members of the filters report the first of them that violates the grammar. -/
theorem readFilterMembers_reports (i : Nat) (ms : List (String × Json)) :
  Reports (readFilterMembers ms) (Along (fun k => FilterViolates (i + k)) ms)
  := by
  induction ms generalizing i with
  | nil => apply Reports.of_ok (not_along_nil _)
  | cons m ms ih =>
    obtain ⟨name, j⟩ := m
    have hcons := (readFilter_reports i name j).cons (fun _ _ _ h => h.liesIn)
      fun f => (ih (i + 1)).map (f :: ·)
    simpa only [readFilterMembers, bind_assoc, pure_bind] using hcons

/-! ### Operators -/

/-- A place in the `k`-th operator lies under the `k`-th member of the operators. -/
theorem OperatorViolates.liesIn {k : Nat} {m : String × Json} {p : Place}
    (h : OperatorViolates k m p) :
  p.LiesIn [6] k
  := by cases h <;> exact ⟨_, rfl⟩

theorem exists_readOperator_iff (path : String) (j : Json) :
  (∃ op, readOperator path j = .ok op)
    ↔ ∃ tag, j = .string tag ∧ tag ∈ Operator.acceptedTags
  := by
  simp only [readOperator_eq_ok_iff, ← exists_ofTag?_iff]
  constructor
  · rintro ⟨op, tag, hj, hop⟩
    exact ⟨tag, hj, op, hop⟩
  · rintro ⟨tag, hj, op, hop⟩
    exact ⟨op, tag, hj, hop⟩

/-- Of a member of the operators the name is checked before the tag. -/
theorem readOperatorEntry_reports (k : Nat) (name : String) (j : Json) :
  Reports
    (readField ("operators." ++ name) name >>= fun field =>
      readOperator ("operators." ++ name) j >>= fun op => pure (field.text, op))
    (OperatorViolates k (name, j))
  := by
  have hkey := Reports.of_blames (p := .operatorKey k name) (readField_blames _ name)
    (exists_readField_iff _ name)
  have htag := Reports.of_blames (p := .operatorTag k name) (readOperator_blames _ j)
    (exists_readOperator_iff _ j)
  apply Reports.congr
  · apply hkey.bind fun field _ => htag.map (Prod.mk field.text)
    rintro _ _ ⟨rfl, -⟩ ⟨rfl, -⟩
    simp [Place.rank, List.cons_lt_cons_iff]
  · intro p
    constructor
    · rintro (⟨rfl, h⟩ | ⟨rfl, h⟩)
      · exact .key h
      · exact .tag h
    · intro h
      cases h with
      | key h => exact .inl ⟨rfl, h⟩
      | tag h => exact .inr ⟨rfl, h⟩

/-- The members of the operators report the first of them that violates the grammar, whatever is in
the table already. -/
theorem readOperatorMembers_reports (i : Nat) (t : Operators) (ms : List (String × Json)) :
  Reports (readOperatorMembers t ms) (Along (fun k => OperatorViolates (i + k)) ms)
  := by
  induction ms generalizing i t with
  | nil => apply Reports.of_ok (not_along_nil _)
  | cons m ms ih =>
    obtain ⟨name, j⟩ := m
    have hcons := (readOperatorEntry_reports i name j).cons (fun _ _ _ h => h.liesIn)
      fun e => ih (i + 1) (t.insert e.1 e.2)
    simpa only [readOperatorMembers, bind_assoc, pure_bind] using hcons

end Criteria

end Shortlist
