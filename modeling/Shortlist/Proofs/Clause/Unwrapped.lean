import Mathlib.Data.List.Forall2
import Shortlist.Clause

/-!
# Entities and their ids

An entity stands for its id.  Where an id that is neither null nor an array is given in place of
its entity, at any depth of lists, every operator but those that take a pattern makes the same
clause of the filter, or refuses it for the same reason.
-/

namespace Shortlist

/-- The operand that a value is given as, when it is neither null nor an array. -/
def Value.operand? : Value → Option Operand
  | .bool b => some (.bool b)
  | .int n => some (.int n)
  | .float x => some (.float x)
  | .string s => some (.string s)
  | .null | .array _ => none

namespace Operand

/-- The second operand is the first with some entities, at any depth of lists, replaced by their
ids. -/
inductive Unwraps : Operand → Operand → Prop
  | keep (v : Operand) : Unwraps v v
  | list {vs ws : List Operand} (h : List.Forall₂ Unwraps vs ws) : Unwraps (.list vs) (.list ws)
  | id {id : Value} {v : Operand} (h : id.operand? = some v) : Unwraps (.entity id) v

/-- An operand that a value is given as is no list, and has this value. -/
theorem eq_of_operand? {id : Value} {v : Operand} (h : id.operand? = some v) :
  v.toValue = id ∧ v.isNull = false ∧ v.isList = false
  := by
  cases id with
  | null => cases h
  | array items => cases h
  | _ =>
    cases h
    exact ⟨rfl, rfl, rfl⟩

namespace Unwraps

variable {v w : Operand} {vs ws : List Operand}

/-- An entity is null for no filter, and neither is an id that replaces it. -/
theorem isNull_eq (h : v.Unwraps w) :
  w.isNull = v.isNull
  := by
  cases h with
  | keep => rfl
  | list => rfl
  | id h => apply (eq_of_operand? h).2.1

/-- An entity is no list, and neither is an id that replaces it. -/
theorem isList_eq (h : v.Unwraps w) :
  w.isList = v.isList
  := by
  cases h with
  | keep => rfl
  | list => rfl
  | id h => apply (eq_of_operand? h).2.2

mutual

/-- An entity and the id that replaces it come to the same value. -/
theorem toValue_eq {v w : Operand} (h : v.Unwraps w) :
  w.toValue = v.toValue
  := by
  cases h with
  | keep => rfl
  | list h => rw [toValue, toValue, toValues_eq h]
  | id h => apply (eq_of_operand? h).1

theorem toValues_eq {vs ws : List Operand} (h : List.Forall₂ Unwraps vs ws) :
  toValues ws = toValues vs
  := by
  cases h with
  | nil => rfl
  | cons h hs => rw [toValues, toValues, toValue_eq h, toValues_eq hs]

end

theorem map_toValue_eq (h : List.Forall₂ Unwraps vs ws) :
  ws.map toValue = vs.map toValue
  := by
  induction h with
  | nil => rfl
  | cons h _ ih => rw [List.map_cons, List.map_cons, ih, h.toValue_eq]

/-- Lists stay where they are among operands some of which are replaced. -/
theorem any_isList_eq (h : List.Forall₂ Unwraps vs ws) :
  ws.any isList = vs.any isList
  := by
  induction h with
  | nil => rfl
  | cons h _ ih => rw [List.any_cons, List.any_cons, ih, h.isList_eq]

/-- A membership test takes the same values. -/
theorem members?_eq (h : v.Unwraps w) :
  w.members? = v.members?
  := by
  cases h with
  | keep => rfl
  | list h => rw [members?, members?, any_isList_eq h, map_toValue_eq h]
  | id h =>
    obtain ⟨hvalue, -, hlist⟩ := eq_of_operand? h
    rw [members?.eq_def]
    split
    · cases hlist
    · rw [hvalue]
      rfl

/-- A range takes the same bounds, or refuses them for the same reason. -/
theorem bounds_eq (h : v.Unwraps w) :
  w.bounds = v.bounds
  := by
  cases h with
  | keep => rfl
  | id h =>
    obtain ⟨-, -, hlist⟩ := eq_of_operand? h
    rw [bounds.eq_def]
    split
    · cases hlist
    · cases hlist
    · rfl
  | list h =>
    -- a list of any length but two is refused whatever its members are
    cases h with
    | nil => rfl
    | cons hlow h =>
      cases h with
      | nil => rfl
      | cons hhigh h =>
        cases h with
        | nil =>
          rw [bounds, bounds, hlow.isNull_eq, hlow.isList_eq, hlow.toValue_eq, hhigh.isNull_eq,
            hhigh.isList_eq, hhigh.toValue_eq]
        | cons => rfl

end Unwraps

end Operand

/-- The second filter is the first with some entities replaced by their ids, which is done only
where the field is one of those allowed. -/
structure Filter.Unwraps (allowed : String → Prop) (f f' : Filter) : Prop where
  field : f'.field = f.field
  operand : f'.operand = f.operand ∨ allowed f.field.text ∧ f.operand.Unwraps f'.operand

/-- The field has no operator that takes a pattern. -/
def Operators.HasNoPattern (t : Operators) (field : String) : Prop :=
  ∀ op, t.operatorOf field = .ok op → op ≠ .like ∧ op ≠ .notLike

namespace Filter.Unwraps

variable {allowed : String → Prop} {f f' : Filter}

/-- What is done to entities is done to operands. -/
theorem unwraps_operand (h : f.Unwraps allowed f') :
  f.operand.Unwraps f'.operand
  := by
  rcases h.operand with heq | ⟨-, h⟩
  · rw [heq]
    apply Operand.Unwraps.keep
  · exact h

/-- Of related filters, an operator that takes no pattern makes the same clause. -/
theorem ofOperand_eq (h : f.Unwraps allowed f') (column : String) {op : Operator}
    (suits : f'.operand = f.operand ∨ op.kind ≠ .pattern) :
  Clause.ofOperand column op f' = Clause.ofOperand column op f
  := by
  have hoperand := h.unwraps_operand
  rw [Clause.ofOperand, Clause.ofOperand, h.field]
  cases hkind : op.kind with
  | comparison => simp only [hoperand.toValue_eq]
  | nullCheck => rfl
  | pattern =>
    rw [suits.resolve_right]
    exact not_not_intro hkind
  | membership => simp only [hoperand.members?_eq]
  | range => simp only [hoperand.bounds_eq]

/-- A filter has the same clause, or is refused for the same reason. -/
theorem ofFilter_eq {t : Operators} (h : f.Unwraps t.HasNoPattern f')
    (rootAlias? : Option String) :
  Clause.ofFilter t rootAlias? f' = Clause.ofFilter t rootAlias? f
  := by
  rw [Clause.ofFilter, Clause.ofFilter, h.field]
  cases hop : t.operatorOf f.field.text with
  | error e => rfl
  | ok op =>
    cases f.field.qualify rootAlias? with
    | error e => rfl
    | ok column =>
      have suits : f'.operand = f.operand ∨ op.kind ≠ .pattern := by
        apply h.operand.imp_right
        rintro ⟨allowed, -⟩
        obtain ⟨hlike, hnotLike⟩ := allowed op hop
        cases op with
        | like => cases hlike rfl
        | notLike => cases hnotLike rfl
        | _ => decide
      simp only [h.ofOperand_eq column suits]

end Filter.Unwraps

end Shortlist
