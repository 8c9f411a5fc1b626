import Shortlist.Proofs.Criteria.First
import Shortlist.Proofs.Number.Padded

/-!
# Numbers given as texts

The items and the page are numbers, and either may be given as a text.  The text of a number, with
any padding, is read as the number is, in whatever options it stands.  A text of no integer is
refused where it stands, unless something that is looked at before is refused already.
-/

namespace Shortlist.Criteria

/-! ### One option replaced -/

variable {members : List (String × Json)} {name : String} {j j' : Json}

theorem option?_put (hj : j ≠ .null) (other : String) :
  option? (Keyed.put name j members) other
    = if name = other then some j else option? members other
  := by
  have hnull : j.isNull = false := by cases j <;> trivial
  rw [option?, option?, Keyed.get?_put]
  split
  · rw [Option.filter_some, hnull]
    rfl
  · rfl

/-- Whether unknown options are given does not depend on an option that is known. -/
theorem find?_unknown_put_eq_none_iff (hname : name ∈ optionNames) :
  (Keyed.keys (Keyed.put name j members)).find? (!optionNames.contains ·) = none
    ↔ ∀ k ∈ Keyed.keys members, k ∈ optionNames
  := by
  rw [List.find?_eq_none, Keyed.keys_put]
  split <;> simp [hname, or_imp, forall_and]

/-- Options are read alike when the items, or the page, are given by trees that are read as the
same integer. -/
theorem ofMembers_put_congr (hname : name = "items" ∨ name = "page") (hj : j ≠ .null)
    (hj' : j' ≠ .null) (h : ∀ path, readInteger path j = readInteger path j') :
  ofMembers (Keyed.put name j members) = ofMembers (Keyed.put name j' members)
  := by
  have hitems : readItems j = readItems j' := by rw [readItems, readItems, h]
  have hpage : readPage j = readPage j' := by rw [readPage, readPage, h]
  have hread : readKnown (Keyed.put name j members) = readKnown (Keyed.put name j' members) := by
    simp only [readKnown, option?_put hj, option?_put hj']
    rcases hname with rfl | rfl
    · simp [orStandard, hitems]
    · simp [orStandard, hpage]
  rw [ofMembers_eq_of_keys, ofMembers_eq_of_keys, Keyed.keys_put, Keyed.keys_put, hread]

/-! ### Texts of integers -/

theorem readInteger_text {s : String} {n : Int64} (h : Number.SpelledIn s.toList n.toInt)
    (path : String) :
  readInteger path (.string s) = readInteger path (.number (.whole n.toInt))
  := by
  rw [(readInteger_eq_ok_iff ..).mpr (.text h), (readInteger_eq_ok_iff ..).mpr (.whole _)]

/-! ### Texts of no integer -/

theorem readInteger_eq_error {s : String} (h : Number.IsNoInt64 s.toList) (path : String) :
  readInteger path (.string s) = .error (.option path (.notInteger ("\"" ++ s ++ "\"")))
  := by rw [readInteger, (Number.readInt64?_trim_eq_none_iff _).mpr h]

/-- Everything that is looked at before the option is in order: no option is unknown, and the
items, which come before the page, are a number. -/
structure ReadUpTo (members : List (String × Json)) (name : String) : Prop where
  known : ∀ k ∈ Keyed.keys members, k ∈ optionNames
  items : name = "page" →
    Allows members "items" fun j => ∃ n, j.IsInteger n ∧ 0 ≤ n ∧ n < 2 ^ 32

theorem exists_readItems_iff :
  (∃ n, orStandard standard.items readItems (option? members "items") = .ok n)
    ↔ Allows members "items" fun j => ∃ n, j.IsInteger n ∧ 0 ≤ n ∧ n < 2 ^ 32
  := by
  simp only [orStandard_eq_ok_iff readItems_eq_ok_iff]
  apply exists_optionIs_iff
  intro j
  simpa using exists_isInteger_iff j 0

/-- What is wrong with a known option is reported only when no option is unknown. -/
theorem ofMembers_put_eq_error_iff (hname : name ∈ optionNames) (text : String) :
  ofMembers (Keyed.put name j members) = .error (.option name (.notInteger text))
    ↔ (∀ k ∈ Keyed.keys members, k ∈ optionNames)
      ∧ readKnown (Keyed.put name j members) = .error (.option name (.notInteger text))
  := by
  rw [ofMembers_eq_of_keys, ← find?_unknown_put_eq_none_iff hname]
  cases (Keyed.keys (Keyed.put name j members)).find? (!optionNames.contains ·) <;> simp

variable {e : Error}

theorem readKnown_put_items (hj : j ≠ .null) (h : readItems j = .error e) :
  readKnown (Keyed.put "items" j members) = .error e
  := by
  rw [readKnown, option?_put hj, if_pos rfl, orStandard, h]
  rfl

/-- The page is read when the items are a number. -/
theorem readKnown_put_page_iff (hj : j ≠ .null) (h : readPage j = .error e) :
  readKnown (Keyed.put "page" j members) = .error e
    ↔ Allows members "items" fun j => ∃ n, j.IsInteger n ∧ 0 ≤ n ∧ n < 2 ^ 32
  := by
  rw [← exists_readItems_iff, readKnown, option?_put hj, if_neg (by decide), option?_put hj,
    if_pos rfl]
  cases hitems : orStandard standard.items readItems (option? members "items") with
  | ok n =>
    apply iff_of_true _ ⟨n, rfl⟩
    rw [orStandard, h]
    rfl
  | error e' =>
    apply iff_of_false
    · rintro ⟨⟩
      have hread : Blames (orStandard standard.items readItems (option? members "items"))
          (.option "items") := by
        cases option? members "items" with
        | none =>
          rintro _ ⟨⟩
        | some j => apply readItems_blames
      have hculprit := (hread e hitems).symm.trans (readPage_blames j e h)
      revert hculprit
      decide
    · rintro ⟨_, ⟨⟩⟩

/-- The error of a text that is no integer is reported exactly when nothing that is looked at
before is at fault. -/
theorem ofMembers_put_text_eq_error_iff (hname : name = "items" ∨ name = "page") {s : String}
    (h : Number.IsNoInt64 s.toList) :
  ofMembers (Keyed.put name (.string s) members)
      = .error (.option name (.notInteger ("\"" ++ s ++ "\"")))
    ↔ ReadUpTo members name
  := by
  have hs : Json.string s ≠ .null := Json.noConfusion
  rcases hname with rfl | rfl
  · have hread : readItems (.string s)
        = .error (.option "items" (.notInteger ("\"" ++ s ++ "\""))) := by
      rw [readItems, readInteger_eq_error h]
      rfl
    rw [ofMembers_put_eq_error_iff (by decide), readKnown_put_items hs hread]
    constructor
    · rintro ⟨known, -⟩
      exact ⟨known, by simp⟩
    · rintro ⟨known, -⟩
      exact ⟨known, rfl⟩
  · have hread : readPage (.string s)
        = .error (.option "page" (.notInteger ("\"" ++ s ++ "\""))) := by
      rw [readPage, readInteger_eq_error h]
      rfl
    rw [ofMembers_put_eq_error_iff (by decide), readKnown_put_page_iff hs hread]
    constructor
    · rintro ⟨known, items⟩
      exact ⟨known, fun _ => items⟩
    · rintro ⟨known, items⟩
      exact ⟨known, items rfl⟩

/-- The items and the page may be given as texts.  With the text of an integer of 64 bits, with any
padding, everything is read as with the integer itself, errors included.  A text of an integer that
does not fit, one with a character that an integer cannot have at its place, and one without digits
are refused where they stand, unless something that is looked at before is refused. -/
theorem ofOptions_put_text (members : List (String × Json)) (name : String)
    (hname : name = "items" ∨ name = "page") (s : String) :
  (∀ n : Int64, Number.PaddedIn s.toList n.toInt →
      ofOptions (.object (Keyed.put name (.string s) members))
        = ofOptions (.object (Keyed.put name (.number (.whole n.toInt)) members)))
    ∧ ((∃ n : Int, Number.PaddedIn s.toList n ∧ (n < -2 ^ 63 ∨ 2 ^ 63 ≤ n))
        ∨ Number.HasForeign s.toList ∨ ¬ Number.HasDigit s.toList →
      (ofOptions (.object (Keyed.put name (.string s) members))
          = .error (.option name (.notInteger ("\"" ++ s ++ "\"")))
        ↔ ReadUpTo members name))
  := by
  constructor
  · intro n h
    apply ofMembers_put_congr hname Json.noConfusion Json.noConfusion
    apply readInteger_text h.spelledIn
  · intro h
    apply ofMembers_put_text_eq_error_iff hname
    rcases h with ⟨n, hn, outside⟩ | h | h
    · exact .beyond hn.spelledIn outside
    · exact .foreign h
    · exact .noDigit h

/-- The third page of posts given as a text, the least integer as the number of items, which is
refused as a number is, an integer that is too great by one, two numbers in one text, and a sign
without digits. -/
theorem ofOptions_put_text_posts :
  ∃ (members : List (String × Json)) (c : Criteria),
    ofOptions (.object (Keyed.put "page" (.number (.whole 3)) members)) = .ok c
    ∧ ofOptions (.object (Keyed.put "page" (.string "\t+003 ") members)) = .ok c
    ∧ ofOptions (.object (Keyed.put "items" (.string "-09223372036854775808") members))
        = .error (.option "items" .negative)
    ∧ ofOptions (.object (Keyed.put "page" (.string "9223372036854775808") members))
        = .error (.option "page" (.notInteger "\"9223372036854775808\""))
    ∧ ofOptions (.object (Keyed.put "items" (.string "1 0") members))
        = .error (.option "items" (.notInteger "\"1 0\""))
    ∧ ofOptions (.object (Keyed.put "items" (.string "+") members))
        = .error (.option "items" (.notInteger "\"+\""))
  := by
  let members : List (String × Json) := [("items", .number (.whole 20)), ("order", .array [])]
  have hitems : ReadUpTo members "items" := ⟨by decide, by simp⟩
  have hpage : ReadUpTo members "page" := by
    use hitems.known
    rintro - j ⟨⟩
    exact .inr ⟨20, .whole 20, by decide, by decide⟩
  refine ⟨members, _, rfl, ?_, ?_, ?_, ?_, ?_⟩
  · exact (ofOptions_put_text members "page" (.inr rfl) "\t+003 ").1 3
      (@Number.PaddedIn.mk _ _ ['\t'] ['+'] [' '] 2 rfl (List.forall_mem_singleton.mpr rfl)
        (.plus (by decide)) (List.forall_mem_singleton.mpr rfl))
  · exact (ofOptions_put_text members "items" (.inl rfl) "-09223372036854775808").1 Int64.minValue
      (@Number.PaddedIn.mk _ _ [] ['-'] [] 1 rfl (List.forall_mem_nil _) (.minus (by decide))
        (List.forall_mem_nil _))
  · refine ((ofOptions_put_text members "page" (.inr rfl) _).2 (.inl ⟨2 ^ 63, ?_, ?_⟩)).mpr hpage
    · exact Number.paddedIn_intText (2 ^ 63)
    · exact .inr (le_refl _)
  · refine ((ofOptions_put_text members "items" (.inl rfl) _).2 (.inr (.inl ?_))).mpr hitems
    refine ⟨['1'], ' ', ['0'], rfl, by decide, ?_, ?_⟩
    · intro _
      exact ⟨⟨'1', by decide⟩, ⟨'0', by decide⟩⟩
    · intro hsign
      exact absurd hsign (by decide)
  · refine ((ofOptions_put_text members "items" (.inl rfl) _).2 (.inr (.inr ?_))).mpr hitems
    rintro ⟨_, hc, hdigit⟩
    obtain rfl := List.mem_singleton.mp hc
    cases hdigit

end Shortlist.Criteria
