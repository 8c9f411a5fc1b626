import Shortlist.Proofs.Criteria.Reported
import Shortlist.Proofs.Keyed.Order

/-!
# The first violation

Raw options are refused exactly when they violate the grammar somewhere, and the error names what
is at the first of all the places at which they do.
-/

namespace Shortlist

variable {α : Type}

/-- A tree has the members of one option object at most. -/
theorem Json.HasOptions.unique {r : Json} {members members' : List (String × Json)}
    (h : r.HasOptions members) (h' : r.HasOptions members') :
  members = members'
  := by
  cases h with
  | null =>
    cases h'
    rfl
  | object =>
    cases h'
    rfl

namespace Criteria

/-! ### Options that are given -/

variable {members : List (String × Json)}

/-- The reader looks at an option exactly when it is given. -/
theorem option?_eq_some_iff (name : String) (j : Json) :
  option? members name = some j ↔ Given members name j
  := by
  have hnull : (!j.isNull) = true ↔ j ≠ .null := by cases j <;> simp [Json.isNull]
  rw [option?, Option.filter_eq_some_iff, hnull, Given]

/-- An option reports what its reader reports of a given tree, and nothing when it is not given. -/
theorem orStandard_reports {read : Json → Except Error α} {V : Json → Place → Prop}
    (h : ∀ j, Reports (read j) (V j)) (standard : α) (name : String) :
  Reports (orStandard standard read (option? members name))
    (fun p => ∃ j, Given members name j ∧ V j p)
  := by
  simp only [← option?_eq_some_iff]
  cases option? members name with
  | none =>
    apply Reports.of_ok
    rintro p ⟨j, ⟨⟩, -⟩
  | some j =>
    apply (h j).congr
    simp

/-- The number of items is reported when it is no integer of 32 bits. -/
theorem readItems_reports (j : Json) :
  Reports (readItems j) (fun p => p = .items ∧ ¬ ∃ n, j.IsInteger n ∧ 0 ≤ n ∧ n < 2 ^ 32)
  := by
  apply Reports.of_blames (readItems_blames j)
  simpa [readItems_eq_ok_iff] using exists_isInteger_iff j 0

/-- The page is reported when it is no integer of 32 bits from one on. -/
theorem readPage_reports (j : Json) :
  Reports (readPage j) (fun p => p = .page ∧ ¬ ∃ n, j.IsInteger n ∧ 1 ≤ n ∧ n < 2 ^ 32)
  := by
  apply Reports.of_blames (readPage_blames j)
  simpa only [readPage_eq_ok_iff, Nat.cast_one] using exists_isInteger_iff j 1

/-- The order is reported when it is no array, and else its first bad term is. -/
theorem readOrder_reports (j : Json) :
  Reports (readOrder j) (OrderViolates j)
  := by
  rw [readOrder.eq_def]
  split
  next terms =>
    apply (readOrderTerms_reports 0 terms).congr
    intro p
    simp only [Nat.zero_add]
    constructor
    · apply OrderViolates.term
    · intro h
      cases h with
      | order h => cases h terms rfl
      | term h => exact h
  next hj =>
    apply Reports.of_only (p := .order)
    · apply OrderViolates.order hj
    · intro q hq
      cases hq with
      | order _ => rfl
      | term _ => cases hj _ rfl
    · rfl

/-- Filters that are given without names are reported, and else the first bad one is. -/
theorem readFilters_reports (j : Json) :
  Reports (readFilters j) (FiltersViolate j)
  := by
  rw [readFilters.eq_def]
  split
  next ms =>
    apply (readFilterMembers_reports 0 ms).congr
    intro p
    simp only [Nat.zero_add]
    constructor
    · apply FiltersViolate.member
    · intro h
      cases h with
      | filters notObject _ => cases notObject ms rfl
      | member h => exact h
  next =>
    apply Reports.of_ok
    intro p h
    cases h with
    | filters _ notList => cases notList [] rfl
    | positional h => cases h rfl
  next js hjs =>
    apply Reports.of_only (p := .positional)
    · apply FiltersViolate.positional hjs
    · intro q hq
      cases hq with
      | filters _ notList => cases notList js rfl
      | positional _ => rfl
    · rfl
  next notObject _ notList =>
    apply Reports.of_only (p := .filters)
    · apply FiltersViolate.filters notObject notList
    · intro q hq
      cases hq with
      | filters _ _ => rfl
      | positional _ => cases notList _ rfl
      | member _ => cases notObject _ rfl
    · rfl

/-- Operators that are given without names are reported, and else the first bad one is. -/
theorem readOperators_reports (j : Json) :
  Reports (readOperators j) (OperatorsViolate j)
  := by
  rw [readOperators.eq_def]
  split
  next ms =>
    apply (readOperatorMembers_reports 0 .empty ms).congr
    intro p
    simp only [Nat.zero_add]
    constructor
    · apply OperatorsViolate.member
    · intro h
      cases h with
      | operators notObject _ => cases notObject ms rfl
      | member h => exact h
  next =>
    apply Reports.of_ok
    intro p h
    cases h with
    | operators _ notEmpty => cases notEmpty rfl
  next notObject notEmpty =>
    apply Reports.of_only (p := .operators)
    · apply OperatorsViolate.operators notObject notEmpty
    · intro q hq
      cases hq with
      | operators _ _ => rfl
      | member _ => cases notObject _ rfl
    · rfl

/-- The grouping is reported when it is neither empty nor a field. -/
theorem readGrouping_reports (j : Json) :
  Reports (readGrouping j)
    (fun p => p = .grouping ∧ ¬ ∃ s, j = .string s ∧ (s = "" ∨ isFieldReference s = true))
  := by
  apply Reports.of_blames (readGrouping_blames j)
  simp only [readGrouping_eq_ok_iff_isGrouping, exists_isGrouping_iff]

/-- The null option is reported when it is no truth value. -/
theorem readSkipNull_reports (j : Json) :
  Reports (readSkipNull j) (fun p => p = .skipNull ∧ ¬ ∃ b, j = .bool b)
  := by
  apply Reports.of_blames (readSkipNull_blames j)
  simp only [readSkipNull_eq_ok_iff]

/-! ### All options -/

/-- Violations of the order all come in the phase of the order. -/
theorem OrderViolates.phase {j : Json} {p : Place} (h : OrderViolates j p) :
  p.phase = 4
  := by
  cases h with
  | order _ => rfl
  | term h =>
    obtain ⟨_, _, -, h⟩ := h
    apply h.liesIn.phase

/-- Violations of the filters all come in the phase of the filters. -/
theorem FiltersViolate.phase {j : Json} {p : Place} (h : FiltersViolate j p) :
  p.phase = 5
  := by
  cases h with
  | filters _ _ => rfl
  | positional _ => rfl
  | member h =>
    obtain ⟨_, _, -, h⟩ := h
    apply h.liesIn.phase

/-- Violations of the operators all come in the phase of the operators. -/
theorem OperatorsViolate.phase {j : Json} {p : Place} (h : OperatorsViolate j p) :
  p.phase = 6
  := by
  cases h with
  | operators _ _ => rfl
  | member h =>
    obtain ⟨_, _, -, h⟩ := h
    apply h.liesIn.phase

/-- The options that are known are read in the order of their names. -/
def readKnown (members : List (String × Json)) : Except Error Criteria := do
  let items ← orStandard standard.items readItems (option? members "items")
  let page ← orStandard standard.page readPage (option? members "page")
  let order ← orStandard standard.order readOrder (option? members "order")
  let filters ← orStandard standard.filters readFilters (option? members "filters")
  let operators ← orStandard standard.operators readOperators (option? members "operators")
  let grouping? ← orStandard standard.grouping? readGrouping (option? members "group_by")
  let skipNull ← orStandard standard.skipNull readSkipNull (option? members "skip_null_values")
  return { items, page, order, grouping?, filters, operators, skipNull }

/-- Options whose names are known report their violations from the second phase on. -/
theorem readKnown_reportsFrom (members : List (String × Json)) :
  ReportsFrom 2 (readKnown members) (OptionsViolate members)
  := by
  apply ReportsFrom.congr
  -- every option is a phase of its own, so only the places within one have to be compared
  · apply ReportsFrom.bind standard.items (orStandard_reports readItems_reports ..)
    · rintro p ⟨_, -, rfl, -⟩
      rfl
    intro items
    apply ReportsFrom.bind standard.page (orStandard_reports readPage_reports ..)
    · rintro p ⟨_, -, rfl, -⟩
      rfl
    intro page
    apply ReportsFrom.bind standard.order (orStandard_reports readOrder_reports ..)
    · rintro p ⟨_, -, h⟩
      apply h.phase
    intro order
    apply ReportsFrom.bind standard.filters (orStandard_reports readFilters_reports ..)
    · rintro p ⟨_, -, h⟩
      apply h.phase
    intro filters
    apply ReportsFrom.bind standard.operators (orStandard_reports readOperators_reports ..)
    · rintro p ⟨_, -, h⟩
      apply h.phase
    intro operators
    apply ReportsFrom.bind standard.grouping? (orStandard_reports readGrouping_reports ..)
    · rintro p ⟨_, -, rfl, -⟩
      rfl
    intro grouping?
    apply ReportsFrom.bind standard.skipNull (orStandard_reports readSkipNull_reports ..)
    · rintro p ⟨_, -, rfl, -⟩
      rfl
    intro skipNull
    apply ReportsFrom.pure
  · intro p
    constructor
    · rintro (⟨j, given, rfl, h⟩ | ⟨j, given, rfl, h⟩ | ⟨j, given, h⟩ | ⟨j, given, h⟩
        | ⟨j, given, h⟩ | ⟨j, given, rfl, h⟩ | ⟨j, given, rfl, h⟩ | h)
      · exact .items given h
      · exact .page given h
      · exact .order given h
      · exact .filters given h
      · exact .operators given h
      · exact .grouping given h
      · exact .skipNull given h
      · cases h
    · intro h
      cases h with
      | items given h => exact .inl ⟨_, given, rfl, h⟩
      | page given h => exact .inr (.inl ⟨_, given, rfl, h⟩)
      | order given h => exact .inr (.inr (.inl ⟨_, given, h⟩))
      | filters given h => exact .inr (.inr (.inr (.inl ⟨_, given, h⟩)))
      | operators given h => exact .inr (.inr (.inr (.inr (.inl ⟨_, given, h⟩))))
      | grouping given h => exact .inr (.inr (.inr (.inr (.inr (.inl ⟨_, given, rfl, h⟩)))))
      | skipNull given h =>
        exact .inr (.inr (.inr (.inr (.inr (.inr (.inl ⟨_, given, rfl, h⟩))))))

theorem ofMembers_eq (members : List (String × Json)) :
  ofMembers members = match members.find? (!optionNames.contains ·.1) with
    | some (name, _) => .error (.option name (.unknownOption optionNames))
    | none => readKnown members
  := rfl

/-- Of an option object unknown names are reported before any option. -/
theorem ofMembers_reports {r : Json} {members : List (String × Json)} (h : r.HasOptions members) :
  Reports (ofMembers members) (Violates r)
  := by
  have hknown := readKnown_reportsFrom members
  have hbad (name : String) : (!optionNames.contains name) = true ↔ name ∉ optionNames := by
    simp
  rw [ofMembers_eq]
  split
  next name _ hfind =>
    obtain ⟨k, first⟩ : ∃ k, (Place.unknown k name).IsFirst (Violates r) := by
      apply Place.exists_isFirst_of_find? hfind (n := [1])
      · exact fun _ _ => ⟨[], rfl⟩
      · intro k name j hget bad
        apply Violates.unknown h hget ((hbad name).mp bad)
      · intro q hq
        cases hq with
        | document hnot => cases hnot ⟨members, h⟩
        | unknown h' hget unknown =>
          cases h.unique h'
          exact .inl ⟨_, _, _, hget, (hbad _).mpr unknown, rfl⟩
        | option h' violates =>
          cases h.unique h'
          -- all options come after the names
          refine .inr fun k name => (Place.unknown k name).liesIn_phase.rank_lt q.liesIn_phase ?_
          apply hknown.phase q violates
    apply Reports.of_error first rfl
  next hfind =>
    have known := List.find?_eq_none.mp hfind
    apply hknown.reports.congr
    intro p
    constructor
    · apply Violates.option h
    · intro hp
      cases hp with
      | document hnot => cases hnot ⟨members, h⟩
      | unknown h' hget unknown =>
        cases h.unique h'
        cases known _ (List.mem_of_getElem? hget) ((hbad _).mpr unknown)
      | option h' violates =>
        cases h.unique h'
        exact violates

/-- Raw options report the first of all the places at which they violate the grammar. -/
theorem ofOptions_reports (r : Json) :
  Reports (ofOptions r) (Violates r)
  := by
  rw [ofOptions.eq_def]
  split
  next => apply ofMembers_reports .null
  next members => apply ofMembers_reports (.object members)
  next notNull notObject =>
    have hnot : ¬ ∃ members, r.HasOptions members := by
      rintro ⟨_, ⟨⟩⟩
      · cases notNull rfl
      · cases notObject _ rfl
    apply Reports.of_only (p := .document)
    · apply Violates.document hnot
    · intro q hq
      cases hq with
      | document _ => rfl
      | unknown h _ _ => cases hnot ⟨_, h⟩
      | option h _ => cases hnot ⟨_, h⟩
    · rfl

/-! ### The order of the members -/

/-- An option does not depend on the order of the members. -/
theorem option?_of_perm {members' : List (String × Json)} (distinct : (Keyed.keys members).Nodup)
    (h : members.Perm members') (name : String) :
  option? members name = option? members' name
  := by rw [option?, option?, Keyed.get?_of_perm distinct h]

/-- Of unknown options nothing but the first name counts. -/
theorem ofMembers_eq_of_keys (members : List (String × Json)) :
  ofMembers members = match (Keyed.keys members).find? (!optionNames.contains ·) with
    | some name => .error (.option name (.unknownOption optionNames))
    | none => readKnown members
  := by
  have hfind : (Keyed.keys members).find? (!optionNames.contains ·)
      = (members.find? (!optionNames.contains ·.1)).map (·.1) := List.find?_map ..
  rw [ofMembers_eq, hfind]
  cases members.find? (!optionNames.contains ·.1) <;> rfl

/-- Options in another order are read alike, errors included, when the same unknown name comes
first. -/
theorem ofMembers_of_perm {members' : List (String × Json)} (distinct : (Keyed.keys members).Nodup)
    (h : members.Perm members')
    (unknown : (Keyed.keys members').find? (!optionNames.contains ·)
      = (Keyed.keys members).find? (!optionNames.contains ·)) :
  ofMembers members' = ofMembers members
  := by
  have hread : readKnown members' = readKnown members := by
    simp only [readKnown, option?_of_perm distinct h]
  rw [ofMembers_eq_of_keys, ofMembers_eq_of_keys, unknown, hread]

/-- An error names a field when the place is that of a name that is no field, or of a list where
there should be names. -/
theorem exists_field_iff {e : Error} {p : Place} (h : e.culprit? = some p.culprit) :
  (∃ name fault, e = .field name fault) ↔ p = .positional ∨ ∃ k name, p = .filterKey k name
  := by
  have hfield : (∃ name fault, e = .field name fault)
      ↔ ∃ name, e.culprit? = some (.field name) := by
    cases e <;> simp [Error.culprit?]
  rw [hfield, h]
  cases p <;> simp [Place.culprit]

/-- Raw options are refused exactly when they violate the grammar somewhere.  The error names what
is at the first of all the places at which they do: a field when that is a name among the filters,
the path of an option otherwise.  So the order of the members does not matter, but for which unknown
name comes first. -/
theorem ofOptions_reports_first (r : Json) :
  ((∃ e, ofOptions r = .error e) ↔ ∃ p, Violates r p)
    ∧ (∀ e, ofOptions r = .error e → ∃ p : Place, (∀ q : Place, q.IsFirst (Violates r) ↔ q = p)
      ∧ e.culprit? = some p.culprit
      ∧ ((∃ name fault, e = .field name fault)
        ↔ p = .positional ∨ ∃ k name, p = .filterKey k name))
    ∧ ∀ members members', r = .object members → (Keyed.keys members).Nodup →
      members.Perm members' → (Keyed.keys members').find? (!optionNames.contains ·)
        = (Keyed.keys members).find? (!optionNames.contains ·) →
      ofOptions (.object members') = ofOptions r
  := by
  have hreports := ofOptions_reports r
  refine ⟨?_, ?_, ?_⟩
  · constructor
    · rintro ⟨e, he⟩
      obtain ⟨p, first, -⟩ := hreports.error e he
      exact ⟨p, first.violated⟩
    · rintro ⟨p, hp⟩
      cases he : ofOptions r with
      | error e => exact ⟨e, rfl⟩
      | ok c => cases hreports.ok c he p hp
  · intro e he
    obtain ⟨p, first, culprit⟩ := hreports.error e he
    refine ⟨p, ?_, culprit, exists_field_iff culprit⟩
    intro q
    constructor
    · apply first.unique
    · rintro rfl
      exact first
  · rintro members members' rfl distinct h unknown
    apply ofMembers_of_perm distinct h unknown

/-- Options of posts with an unknown direction, an object without id in a list, a name that is no
field and a negative number of items, which is reported although it is declared last. -/
theorem ofOptions_reports_first_posts :
  ∃ (members : List (String × Json)) (e : Error) (p : Place),
    ofOptions (.object members) = .error e
    ∧ Keyed.keys members = ["order", "filters", "items"]
    ∧ Violates (.object members) (.termDirection 1)
    ∧ Violates (.object members) (.operand 0 "id" [1])
    ∧ Violates (.object members) (.filterKey 1 "a b")
    ∧ p.IsFirst (Violates (.object members)) ∧ e.culprit? = some (.option "items")
    ∧ e.culprit? = some p.culprit
    ∧ ofOptions (.object members.reverse) = .error e
  := by
  let order : Json := .array [.object [("by", .string "rank")],
    .object [("by", .string "id"), ("dir", .string "up")]]
  let filters : List (String × Json) :=
    [("id", .array [.number (.whole 7), .object [("name", .string "Ann")]]), ("a b", .null)]
  let members : List (String × Json) :=
    [("order", order), ("filters", .object filters), ("items", .number (.whole (-1)))]
  have he : ofOptions (.object members) = .error (.option "items" .negative) := rfl
  have hdirection : Violates (.object members) (.termDirection 1) := by
    apply Violates.option (.object members) (.order ⟨rfl, Json.noConfusion⟩ (.term ⟨1, _, rfl, _⟩))
    apply TermViolates.direction
    intro h
    obtain ⟨token, htoken, heq⟩ := (h _ rfl).resolve_left Json.noConfusion
    rw [← Json.string.inj heq] at htoken
    revert htoken
    decide
  have hoperand : Violates (.object members) (.operand 0 "id" [1]) := by
    apply Violates.option (.object members)
      (.filters ⟨rfl, Json.noConfusion⟩ (.member ⟨0, _, rfl, .operand rfl _⟩))
    rintro (⟨⟨⟩⟩ | ⟨⟨⟩⟩)
  have hkey : Violates (.object members) (.filterKey 1 "a b") := by
    apply Violates.option (.object members)
      (.filters ⟨rfl, Json.noConfusion⟩ (.member ⟨1, _, rfl, .key _⟩))
    decide +kernel
  obtain ⟨-, hfirst, hperm⟩ := ofOptions_reports_first (.object members)
  obtain ⟨p, first, culprit, -⟩ := hfirst _ he
  have hreverse : ofOptions (.object members.reverse) = ofOptions (.object members) := by
    apply hperm members members.reverse rfl (by decide) members.reverse_perm.symm
    decide +kernel
  exact ⟨members, _, p, he, rfl, hdirection, hoperand, hkey, (first p).mpr rfl, rfl, culprit,
    hreverse.trans he⟩

end Criteria

end Shortlist
