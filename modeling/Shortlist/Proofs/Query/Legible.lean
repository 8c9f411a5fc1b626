import Shortlist.Proofs.Dialect.Legible
import Shortlist.Proofs.Query.Agreement
import Shortlist.Proofs.Text.Name

/-!
# Legible predicates

A predicate is written as its column, its operator and what the operator is applied to.  Each of
them shows where it ends, so predicates are written alike only when they agree.
-/

namespace Shortlist

open Text

/-- Nothing follows, or a space does. -/
def Spaced : List Char → Prop := Stops (· != ' ')

theorem Spaced.stops {r : List Char} (h : Spaced r) {p : Char → Bool} (hp : p ' ' = false) :
  Stops p r
  := by
  apply h.of_imp
  intro c hc
  rw [bne_iff_ne]
  rintro rfl
  rw [hp] at hc
  cases hc

/-! ### Operators and placeholders -/

/-- No operator with a space behind it begins another one with a space behind it. -/
theorem Operator.clash_sql {op op' : Operator} (h : op ≠ op') :
  Clash (op.sql ++ " ").toList (op'.sql ++ " ").toList
  := by
  have hall : ∀ op ∈ all, ∀ op' ∈ all, op ≠ op' →
      Clash (op.sql ++ " ").toList (op'.sql ++ " ").toList := by
    decide +kernel
  apply hall op (mem_all op) op' (mem_all op') h

theorem Operator.forces_sql (op op' : Operator) :
  Forces Spaced op.sql.toList op'.sql.toList (op = op')
  := by
  by_cases h : op = op'
  · subst h
    apply Forces.same _ _ rfl
  · intro r s hr hs heq
    -- where an operator ends the statement, a space is put behind the statement
    have hspace {r : List Char} (hr : Spaced r) : ∃ t, r ++ [' '] = ' ' :: t := by
      cases r with
      | nil => exact ⟨[], rfl⟩
      | cons c r =>
        obtain rfl : c = ' ' := by simpa [Spaced, Stops] using hr
        exact ⟨r ++ [' '], rfl⟩
    obtain ⟨t, ht⟩ := hspace hr
    obtain ⟨t', ht'⟩ := hspace hs
    have happend := congrArg (· ++ [' ']) heq
    simp only [List.append_assoc, ht, ht'] at happend
    cases (clash_sql h).append_ne t t' (by simpa using happend)

theorem Dialect.forces_placeholder (d : Dialect) (k k' : Nat) :
  Forces (Stops Char.isDigit) (d.placeholder k).toList (d.placeholder k').toList (k = k')
  := by
  cases d <;> rw [placeholder, placeholder, String.toList_append, String.toList_append] <;>
    apply (Number.forces_natText k k').behind

/-! ### Predicates -/

namespace Predicate

/-- The operator a predicate is written with. -/
def operator : Predicate → Operator
  | .compare _ op _ => op
  | .null _ negated => if negated then .isNotNull else .isNull
  | .like _ negated _ => if negated then .notLike else .like
  | .isIn _ negated _ => if negated then .notIn else .isIn
  | .between .. => .between

/-- The kind of operators a predicate is written with. -/
def kind : Predicate → Operator.Kind
  | .compare .. => .comparison
  | .null .. => .nullCheck
  | .like .. => .pattern
  | .isIn .. => .membership
  | .between .. => .range

/-- Whether the predicate tests for a list without values, for which no column is written. -/
def isConstant : Predicate → Bool
  | .isIn _ _ [] => true
  | _ => false

/-- What is written behind the operator of a predicate. -/
def operands (d : Dialect) (number : String → Nat) : Predicate → List Char
  | .compare _ _ name => " ".toList ++ (d.placeholder (number name)).toList
  | .null .. => []
  | .like _ _ pattern => " ".toList ++ pattern.toList
  | .isIn _ _ values =>
    " (".toList ++ (", ".toList.intercalate ((values.map d.literal).map String.toList) ++ [')'])
  | .between _ low high =>
    " ".toList ++ ((d.placeholder (number low)).toList
      ++ (" AND ".toList ++ (d.placeholder (number high)).toList))

/-- The predicate can be read off its text: it tests a name, a comparison has an operator of
this kind, a pattern is quoted, and the values of a list can be read off their literals. -/
inductive Legible (d : Dialect) : Predicate → Prop
  | compare {column : String} {op : Operator} (name : String) (isName : IsName column)
      (kind : op.kind = .comparison) : Legible d (.compare column op name)
  | null {column : String} (negated : Bool) (isName : IsName column) :
      Legible d (.null column negated)
  | like {column : String} (negated : Bool) (text : String) (isName : IsName column) :
      Legible d (.like column negated (quote text))
  | isIn {column : String} {values : List Value} (negated : Bool) (isName : IsName column)
      (legible : ∀ v ∈ values, v.isLegible d = true) : Legible d (.isIn column negated values)
  | between {column : String} (low high : String) (isName : IsName column) :
      Legible d (.between column low high)

namespace Legible

variable {d : Dialect} {p p' : Predicate}

theorem isName_column (h : p.Legible d) :
  IsName p.column
  := by cases h <;> assumption

theorem kind_operator (h : p.Legible d) :
  p.operator.kind = p.kind
  := by
  cases h with
  | compare _ _ kind => exact kind
  | null negated => cases negated <;> rfl
  | like negated => cases negated <;> rfl
  | isIn negated => cases negated <;> rfl
  | between => rfl

/-- A predicate is written as its column, its operator and what is behind the operator. -/
theorem spelled_eq (h : p.Legible d) (hp : p.isConstant = false) (number : String → Nat) :
  spelled d number p.pieces
    = p.column.toList ++ (" ".toList ++ (p.operator.sql.toList ++ p.operands d number))
  := by
  cases h with
  | compare => simp [spelled, pieces, Piece.map, Piece.sql, column, operator, operands]
  | null negated =>
    cases negated <;> simp [spelled, pieces, Piece.map, Piece.sql, column, operator, operands,
      Operator.sql]
  | like negated =>
    cases negated <;> simp [spelled, pieces, Piece.map, Piece.sql, column, operator, operands,
      Operator.sql]
  | @isIn column values negated =>
    cases values with
    | nil => cases hp
    | cons v vs =>
      rw [pieces, spelled_text, spelled_append, spelled_separated, map_spelled_literals]
      · cases negated <;> simp [spelled, Piece.map, Piece.sql, Predicate.column, operator, operands,
          Operator.sql]
      · intro h
        cases h
  | between =>
    simp [spelled, pieces, Piece.map, Piece.sql, column, operator, operands, Operator.sql]

/-- Of two operators the one that is taken shows whether the test is negated. -/
theorem negated_eq_of_ite_eq {op op' : Operator} (hne : op ≠ op') {negated negated' : Bool}
    (h : (if negated then op else op') = if negated' then op else op') :
  negated = negated'
  := by
  cases negated <;> cases negated'
  case false.false => rfl
  case true.true => rfl
  case false.true => cases hne h.symm
  case true.false => cases hne h

/-- Predicates with one column and one operator are told apart by what is behind it. -/
theorem forces_operands (h : p.Legible d) (h' : p'.Legible d) (hcolumn : p.column = p'.column)
    (hoperator : p.operator = p'.operator) (number number' : String → Nat) :
  Forces Spaced (p.operands d number) (p'.operands d number') (p.Agree number number' p')
  := by
  have hkind : p.kind = p'.kind := by rw [← h.kind_operator, hoperator, h'.kind_operator]
  have hdigit (r : List Char) (hr : Spaced r) : Stops Char.isDigit r := hr.stops (by decide)
  cases h with
  | @compare column op name =>
    cases h' with
    | @compare column' op' name' =>
      obtain rfl : column = column' := hcolumn
      obtain rfl : op = op' := hoperator
      have hname := (d.forces_placeholder (number name) (number' name')).mono hdigit
      apply (hname.behind " ".toList).imp
      apply Agree.compare
    | _ => cases hkind
  | @null column negated =>
    cases h' with
    | @null column' negated' =>
      obtain rfl : column = column' := hcolumn
      obtain rfl := negated_eq_of_ite_eq (by decide) hoperator
      apply Forces.same _ _ (.null column negated)
    | _ => cases hkind
  | @like column negated text =>
    cases h' with
    | @like column' negated' text' =>
      obtain rfl : column = column' := hcolumn
      obtain rfl := negated_eq_of_ite_eq (by decide) hoperator
      have hpattern := (forces_quote text text').mono
        fun r (hr : Spaced r) => hr.stops (by decide)
      apply (hpattern.behind " ".toList).imp
      rintro rfl
      apply Agree.like
    | _ => cases hkind
  | @isIn column values negated _ legible =>
    cases h' with
    | @isIn column' values' negated' _ legible' =>
      obtain rfl : column = column' := hcolumn
      obtain rfl := negated_eq_of_ite_eq (by decide) hoperator
      have hvalues := Dialect.forces_items (fun v hv => Value.isTold_of_isLegible (legible v hv))
        (fun w hw => Value.isTold_of_isLegible (legible' w hw))
        (fun v hv w hw => d.forces_literal v (legible v hv) w (legible' w hw)) Spaced
      apply (hvalues.behind " (".toList).imp
      rintro rfl
      apply Agree.isIn
    | _ => cases hkind
  | @between column low high =>
    cases h' with
    | @between column' low' high' =>
      obtain rfl : column = column' := hcolumn
      have hlow := d.forces_placeholder (number low) (number' low')
      have hhigh := (d.forces_placeholder (number high) (number' high')).mono hdigit
      have hbounds := hlow.append (hhigh.behind " AND ".toList)
        (fun _ _ => by rfl) (fun _ _ => by rfl)
      apply (hbounds.behind " ".toList).imp
      rintro ⟨hlow, hhigh⟩
      apply Agree.between column hlow hhigh
    | _ => cases hkind

theorem spelled_constant (d : Dialect) (number : String → Nat) (column : String)
    (negated : Bool) :
  spelled d number (Predicate.isIn column negated []).pieces
    = (if negated then "1=1" else "1=0").toList
  := by simp [spelled, pieces, Piece.map, Piece.sql]

/-- The constant that is written for a list without values shows whether it is negated. -/
theorem forces_constant (column column' : String) (negated negated' : Bool)
    (number number' : String → Nat) :
  Forces Spaced (spelled d number (Predicate.isIn column negated []).pieces)
    (spelled d number' (Predicate.isIn column' negated' []).pieces)
    ((Predicate.isIn column negated []).Agree number number' (.isIn column' negated' []))
  := by
  have hconstant : Forces Spaced (if negated then "1=1" else "1=0").toList
      (if negated' then "1=1" else "1=0").toList (negated = negated') := by
    apply Forces.told fun negated : Bool => (if negated then "1=1" else "1=0").toList
    cases negated <;> cases negated' <;> decide
  rw [spelled_constant, spelled_constant]
  apply hconstant.imp
  rintro rfl
  apply Agree.empty

theorem eq_of_isConstant {p : Predicate} (h : p.isConstant = true) :
  ∃ column negated, p = .isIn column negated []
  := by
  cases p with
  | isIn column negated values =>
    cases values with
    | nil => exact ⟨column, negated, rfl⟩
    | cons => cases h
  | _ => cases h

/-- No column is written like the constant for a list without values. -/
theorem spelled_ne_constant (h : p.Legible d) (hp : p.isConstant = false)
    (hp' : p'.isConstant = true) (number number' : String → Nat) (r s : List Char) :
  spelled d number p.pieces ++ r ≠ spelled d number' p'.pieces ++ s
  := by
  obtain ⟨column, negated, rfl⟩ := eq_of_isConstant hp'
  have hone : ∃ t, (if negated then "1=1" else "1=0").toList ++ s = '1' :: t := by
    cases negated <;> exact ⟨_, rfl⟩
  obtain ⟨t, ht⟩ := hone
  rw [h.spelled_eq hp, spelled_constant, ht, List.append_assoc]
  apply h.isName_column.append_ne_cons (by decide)

theorem spaced_operands (p : Predicate) (number : String → Nat) {r : List Char} (hr : Spaced r) :
  Spaced (p.operands d number ++ r)
  := by
  cases p with
  | null => exact hr
  | _ => rfl

/-- Predicates that are written alike agree. -/
theorem forces_pieces (h : p.Legible d) (h' : p'.Legible d) (number number' : String → Nat) :
  Forces Spaced (spelled d number p.pieces) (spelled d number' p'.pieces)
    (p.Agree number number' p')
  := by
  cases hp : p.isConstant <;> cases hp' : p'.isConstant
  case true.true =>
    obtain ⟨column, negated, rfl⟩ := eq_of_isConstant hp
    obtain ⟨column', negated', rfl⟩ := eq_of_isConstant hp'
    apply forces_constant
  case false.true =>
    intro r s _ _ heq
    cases h.spelled_ne_constant hp hp' number number' r s heq
  case true.false =>
    intro r s _ _ heq
    cases h'.spelled_ne_constant hp' hp number' number s r heq.symm
  case false.false =>
    intro r s hr hs heq
    rw [h.spelled_eq hp, h'.spelled_eq hp'] at heq
    simp only [List.append_assoc] at heq
    obtain ⟨hcolumn, heq⟩ :=
      h.isName_column.forces h'.isName_column _ _ (by rfl) (by rfl) heq
    obtain ⟨hoperator, heq⟩ := Operator.forces_sql _ _ _ _ (spaced_operands p number hr)
      (spaced_operands p' number' hs) (List.append_cancel_left heq)
    apply h.forces_operands h' hcolumn hoperator number number' r s hr hs heq

end Legible

end Predicate

end Shortlist
