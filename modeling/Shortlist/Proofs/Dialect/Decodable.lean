import Shortlist.Operand
import Shortlist.Proofs.Dialect.Legible
import Shortlist.Proofs.Query.Spelling

/-!
# Values read off their literals

A literal belongs to one value only, and so does the list of literals that a membership test
writes between parentheses, when the values hold no doubles, and no truth values where these are
written as digits.  Where one literal begins another, the longer one goes on with a digit or a
quote, so whatever stands between literals shows where they end.
-/

namespace Shortlist

open Text

namespace Value

/-- Whether the value is a truth value. -/
def isBool : Value → Bool
  | .bool _ => true
  | _ => false

/-- Whether there is no truth value in a value, at any depth. -/
def isBoolFree (v : Value) : Bool := v.everywhere (!·.isBool)

mutual

/-- Two properties hold everywhere in a value exactly when each of them does. -/
theorem everywhere_and (p q : Value → Bool) :
  (v : Value) → v.everywhere (fun w => p w && q w) = (v.everywhere p && v.everywhere q)
  | .array vs => by
    rw [everywhere, everywhere, everywhere, everywhereIn_and p q vs]
    ac_rfl
  | .null => rfl
  | .bool _ => rfl
  | .int _ => rfl
  | .float _ => rfl
  | .string _ => rfl

theorem everywhereIn_and (p q : Value → Bool) :
  (vs : List Value) →
    everywhereIn (fun w => p w && q w) vs = (everywhereIn p vs && everywhereIn q vs)
  | [] => rfl
  | v :: vs => by
    rw [everywhereIn, everywhereIn, everywhereIn, everywhere_and p q v, everywhereIn_and p q vs]
    ac_rfl

end

/-- Where truth values are digits, the values without doubles and truth values are legible. -/
theorem isLegible_sqlite (v : Value) :
  v.isLegible .sqlite = (v.isFloatFree && v.isBoolFree)
  := by
  have h : isTold .sqlite = fun w => !w.isFloat && !w.isBool := by
    funext w
    cases w <;> rfl
  rw [isLegible, isFloatFree, isBoolFree, h, everywhere_and]

/-- There are no doubles in the value, and no truth values where the dialect writes them as
digits. -/
def IsDecodableIn (d : Dialect) (v : Value) : Prop :=
  v.isFloatFree = true ∧ (d = .sqlite → v.isBoolFree = true)

instance (d : Dialect) (v : Value) : Decidable (v.IsDecodableIn d) :=
  inferInstanceAs (Decidable (_ ∧ _))

/-- The legible values are those that can be decoded. -/
theorem isLegible_iff_isDecodableIn (d : Dialect) (v : Value) :
  v.isLegible d = true ↔ v.IsDecodableIn d
  := by
  cases d with
  | postgres => simp [IsDecodableIn, isLegible_postgres]
  | sqlite => simp [IsDecodableIn, isLegible_sqlite]

end Value

namespace Dialect

variable {d : Dialect}

/-- The literals of a list of values between parentheses, as a membership test writes them. -/
def listText (d : Dialect) (vs : List Value) : String :=
  "(" ++ ", ".intercalate (vs.map d.literal) ++ ")"

theorem toList_listText (vs : List Value) :
  (d.listText vs).toList
    = "(".toList ++ (", ".toList.intercalate ((vs.map d.literal).map String.toList) ++ [')'])
  := by
  rw [listText, String.toList_append, String.toList_append, String.toList_intercalate,
    List.append_assoc]
  rfl

/-- What a membership test for values is written as. -/
theorem spelled_isIn {vs : List Value} (hne : vs ≠ []) (column : String) (negated : Bool)
    (number : String → Nat) :
  spelled d number (Predicate.isIn column negated vs).pieces
    = (column ++ if negated then " NOT IN " else " IN ").toList ++ (d.listText vs).toList
  := by
  rw [Predicate.pieces, spelled_text, spelled_append, spelled_separated, map_spelled_literals,
    toList_listText]
  · cases negated <;> simp [spelled, Piece.map, Piece.sql]
  · apply hne

variable {v w : Value}

/-- Equal literals are literals of equal values. -/
theorem literal_inj (hv : v.isLegible d = true) (hw : w.isLegible d = true)
    (h : d.literal v = d.literal w) :
  v = w
  := (forces_literal d v hv w hw [] [] (stops_nil _) (stops_nil _) (by rw [h])).1

/-- Equal lists of literals are lists of the literals of equal values. -/
theorem listText_inj {vs ws : List Value} (hvs : ∀ v ∈ vs, v.isLegible d = true)
    (hws : ∀ w ∈ ws, w.isLegible d = true) (h : d.listText vs = d.listText ws) :
  vs = ws
  := by
  have hitems := forces_items (fun v hv => Value.isTold_of_isLegible (hvs v hv))
    (fun w hw => Value.isTold_of_isLegible (hws w hw))
    (fun v hv w hw => forces_literal d v (hvs v hv) w (hws w hw)) (Stops goesOn)
  have htext := congrArg String.toList h
  rw [toList_listText, toList_listText] at htext
  exact (hitems.behind "(".toList [] [] (stops_nil _) (stops_nil _) (by rw [htext])).1

/-- A literal that begins another one is continued by a digit or a quote. -/
theorem goesOn_of_literal_eq_append (hv : v.isLegible d = true) (hw : w.isLegible d = true)
    {c : Char} {rest : List Char} (h : (d.literal w).toList = (d.literal v).toList ++ c :: rest) :
  goesOn c = true
  := by
  by_contra hc
  have hstops : Stops goesOn (c :: rest) := Bool.eq_false_iff.mpr hc
  have hforces := forces_literal d v hv w hw (c :: rest) [] hstops (stops_nil _)
    (by rw [h, List.append_nil])
  cases hforces.2

/-- A literal is the literal of one value, and a list of literals between parentheses, as a
membership test writes it, the list of one list of values, when the values hold no doubles, and no
truth values where these are written as digits.  No such literal begins another one that goes on
with a comma, a closing parenthesis or a space. -/
theorem literal_decodes (d : Dialect) :
  (∀ v w : Value, v.IsDecodableIn d → w.IsDecodableIn d → d.literal v = d.literal w → v = w)
    ∧ (∀ vs ws : List Value, (∀ v ∈ vs, v.IsDecodableIn d) → (∀ w ∈ ws, w.IsDecodableIn d) →
        d.listText vs = d.listText ws → vs = ws)
    ∧ (∀ vs, vs ≠ [] → ∀ column negated number,
        spelled d number (Predicate.isIn column negated vs).pieces
          = (column ++ if negated then " NOT IN " else " IN ").toList ++ (d.listText vs).toList)
    ∧ ∀ (v w : Value) (c : Char) (rest : List Char), v.IsDecodableIn d → w.IsDecodableIn d →
        (d.literal w).toList = (d.literal v).toList ++ c :: rest → c ∉ [',', ')', ' ']
  := by
  simp only [← Value.isLegible_iff_isDecodableIn]
  refine ⟨fun v w => literal_inj, fun vs ws => listText_inj, fun vs => spelled_isIn, ?_⟩
  intro v w c rest hv hw h hc
  have hgoesOn := goesOn_of_literal_eq_append hv hw h
  simp only [List.mem_cons, List.not_mem_nil, or_false] at hc
  rcases hc with rfl | rfl | rfl <;> cases hgoesOn

/-- An entity has the literal of its id only, two strings are never written as one string that
looks like both of them, and a number goes on with a digit.  A truth value is told apart from the
string of its name, and where it is not written as a digit also from the number. -/
theorem literal_decodes_strings :
  sqlite.literal (Operand.list [.entity (.string "O'Neil"), .list []]).toValue = "('O''Neil', ())"
    ∧ (Operand.list [.entity (.string "O'Neil"), .list []]).toValue
        = .array [.string "O'Neil", .array []]
    ∧ sqlite.literal (.array [.string "a", .string "b"])
        ≠ sqlite.literal (.array [.string "a', 'b"])
    ∧ sqlite.listText [.string "a", .string "b"] ≠ sqlite.listText [.string "a', 'b"]
    ∧ spelled .sqlite (fun _ => 1) (Predicate.isIn "name" true [.string "a", .string "b"]).pieces
        = "name NOT IN ('a', 'b')".toList
    ∧ (sqlite.literal (.int 12)).toList = (sqlite.literal (.int 1)).toList ++ ['2']
    ∧ '2' ∉ [',', ')', ' ']
    ∧ postgres.literal (.array [.bool true, .string "TRUE"]) = "(TRUE, 'TRUE')"
    ∧ postgres.literal (.bool true) ≠ postgres.literal (.int 1)
    ∧ postgres.listText [.bool true, .string "TRUE"] ≠ postgres.listText [.string "TRUE, 'TRUE"]
  := by
  obtain ⟨hliteral, hlist, hisIn, hnext⟩ := literal_decodes .sqlite
  obtain ⟨hliteral', hlist', -, -⟩ := literal_decodes .postgres
  refine ⟨by decide, hliteral _ _ (by decide) (by decide) rfl, ?_, ?_, ?_, rfl, ?_, by decide,
    ?_, ?_⟩
  · intro h
    simpa using hliteral _ _ (by decide) (by decide) h
  · intro h
    simpa using hlist _ _ (by decide) (by decide) h
  · rw [hisIn _ (List.cons_ne_nil _ _)]
    decide
  · exact hnext (.int 1) (.int 12) '2' [] (by decide) (by decide) rfl
  · intro h
    simpa using hliteral' _ _ (by decide) (by decide) h
  · intro h
    simpa using hlist' _ _ (by decide) (by decide) h

/-- Where a truth value is a digit, it is not told apart from the number. -/
example : sqlite.literal (.bool true) = sqlite.literal (.int 1) := by decide

end Dialect

end Shortlist
