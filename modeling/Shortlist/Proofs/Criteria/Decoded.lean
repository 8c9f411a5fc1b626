import Shortlist.Proofs.Criteria.Violation

/-!
# Decoded operands

An operand is decoded from a tree by going into its lists, member by member.  Decoding fails at
the first object without id, and names the place of that object.  When it does not fail, the value
of the operand is the tree again, with every object replaced by its id.
-/

namespace Shortlist

namespace Json

/-! ### Places in lists -/

/-- A path into a list leads to one of its items first. -/
theorem at?_cons_eq_some_iff (items : List Json) (i : Nat) (rest : List Nat) (k : Json) :
  (array items).at? (i :: rest) = some k ↔ ∃ j, items[i]? = some j ∧ j.at? rest = some k
  := Option.bind_eq_some_iff

/-- What is met by going into lists is what is found at some indices. -/
theorem reaches_iff_exists_at? (j k : Json) :
  j.Reaches k ↔ ∃ indices, j.at? indices = some k
  := by
  constructor
  · intro h
    induction h with
    | refl j => exact ⟨[], by rw [at?]⟩
    | item member _ ih =>
      obtain ⟨i, hi⟩ := List.mem_iff_getElem?.mp member
      obtain ⟨rest, hrest⟩ := ih
      exact ⟨i :: rest, (at?_cons_eq_some_iff ..).mpr ⟨_, hi, hrest⟩⟩
  · rintro ⟨indices, h⟩
    induction indices generalizing j with
    | nil =>
      cases h
      exact .refl _
    | cons i rest ih =>
      cases j with
      | array items =>
        obtain ⟨j, hj, h⟩ := (at?_cons_eq_some_iff ..).mp h
        exact .item (List.mem_of_getElem? hj) (ih j h)
      | _ => cases h

/-- The indices lead to an object without id. -/
def LacksIdAt (j : Json) (indices : List Nat) : Prop :=
  ∃ members, j.at? indices = some (.object members) ∧ ¬ HasId members

/-- The indices lead to the first object without id, in the order of the document. -/
structure FirstLacksIdAt (j : Json) (indices : List Nat) : Prop where
  lacks : j.LacksIdAt indices
  first : ∀ others, j.LacksIdAt others → others ≠ indices → indices < others

/-- Every object has an id exactly when no path leads to one without. -/
theorem hasIds_iff_not_lacksIdAt (j : Json) :
  j.HasIds ↔ ∀ indices, ¬ j.LacksIdAt indices
  := by
  simp only [HasIds, reaches_iff_exists_at?, LacksIdAt]
  constructor
  · rintro h indices ⟨members, hat, noId⟩
    apply noId (h members ⟨indices, hat⟩)
  · rintro h members ⟨indices, hat⟩
    by_contra noId
    apply h indices ⟨members, hat, noId⟩

/-- What is neither a list nor an object lacks nothing. -/
theorem not_lacksIdAt_of_scalar {j : Json} (notArray : ∀ items, j ≠ .array items)
    (notObject : ∀ members, j ≠ .object members) (indices : List Nat) :
  ¬ j.LacksIdAt indices
  := by
  rintro ⟨members, hat, -⟩
  cases indices with
  | nil =>
    cases hat
    cases notObject members rfl
  | cons i rest =>
    cases j with
    | array items => cases notArray items rfl
    | _ => cases hat

/-- No path leads into an object, so an object can lack its own id only. -/
theorem lacksIdAt_object_iff (members : List (String × Json)) (indices : List Nat) :
  (object members).LacksIdAt indices ↔ indices = [] ∧ ¬ HasId members
  := by
  constructor
  · rintro ⟨members', hat, noId⟩
    cases indices with
    | nil =>
      cases hat
      exact ⟨rfl, noId⟩
    | cons i rest => cases hat
  · rintro ⟨rfl, noId⟩
    exact ⟨members, rfl, noId⟩

/-- An object without id is the first one in itself. -/
theorem firstLacksIdAt_object_iff (members : List (String × Json)) (indices : List Nat) :
  (object members).FirstLacksIdAt indices ↔ indices = [] ∧ ¬ HasId members
  := by
  constructor
  · intro h
    apply (lacksIdAt_object_iff ..).mp h.lacks
  · rintro ⟨rfl, noId⟩
    use (lacksIdAt_object_iff ..).mpr ⟨rfl, noId⟩
    intro others h hne
    cases hne ((lacksIdAt_object_iff ..).mp h).1

theorem not_lacksIdAt_array_nil (items : List Json) :
  ¬ (array items).LacksIdAt []
  := by
  rintro ⟨members, ⟨⟩, -⟩

theorem not_lacksIdAt_nil (indices : List Nat) :
  ¬ (array []).LacksIdAt indices
  := by
  rintro ⟨members, hat, -⟩
  cases indices <;> cases hat

variable {j : Json} {js : List Json} {i : Nat} {rest : List Nat}

/-- The path of an object in the first item starts with zero. -/
theorem lacksIdAt_zero_iff :
  (array (j :: js)).LacksIdAt (0 :: rest) ↔ j.LacksIdAt rest
  := Iff.rfl

/-- The path of an object in a later item is its path in the later items, counted on. -/
theorem lacksIdAt_succ_iff :
  (array (j :: js)).LacksIdAt ((i + 1) :: rest) ↔ (array js).LacksIdAt (i :: rest)
  := Iff.rfl

/-- What is first in the first item is first in the list. -/
theorem firstLacksIdAt_zero_iff :
  (array (j :: js)).FirstLacksIdAt (0 :: rest) ↔ j.FirstLacksIdAt rest
  := by
  constructor
  · intro h
    use lacksIdAt_zero_iff.mp h.lacks
    intro others hothers hne
    have hlt := h.first (0 :: others) (lacksIdAt_zero_iff.mpr hothers) (by simpa using hne)
    simpa using hlt
  · intro h
    use lacksIdAt_zero_iff.mpr h.lacks
    rintro (_ | ⟨_ | k, others⟩) hothers hne
    · cases not_lacksIdAt_array_nil _ hothers
    · have hlt := h.first others (lacksIdAt_zero_iff.mp hothers) (by simpa using hne)
      simpa using hlt
    · apply List.Lex.rel
      apply Nat.succ_pos

/-- What is first in a later item is first in the list when the items before it lack nothing. -/
theorem firstLacksIdAt_succ_iff :
  (array (j :: js)).FirstLacksIdAt ((i + 1) :: rest)
    ↔ j.HasIds ∧ (array js).FirstLacksIdAt (i :: rest)
  := by
  rw [hasIds_iff_not_lacksIdAt]
  constructor
  · intro h
    refine ⟨fun others hothers => ?_, lacksIdAt_succ_iff.mp h.lacks, ?_⟩
    · have hlt := h.first (0 :: others) (lacksIdAt_zero_iff.mpr hothers) (by simp)
      simp [List.cons_lt_cons_iff] at hlt
    · rintro (_ | ⟨k, others⟩) hothers hne
      · cases not_lacksIdAt_array_nil _ hothers
      · have hlt := h.first ((k + 1) :: others) (lacksIdAt_succ_iff.mpr hothers)
          (by simpa using hne)
        simpa [List.cons_lt_cons_iff] using hlt
  · rintro ⟨hasIds, h⟩
    use lacksIdAt_succ_iff.mpr h.lacks
    rintro (_ | ⟨_ | k, others⟩) hothers hne
    · cases not_lacksIdAt_array_nil _ hothers
    · cases hasIds others (lacksIdAt_zero_iff.mp hothers)
    · have hlt := h.first (k :: others) (lacksIdAt_succ_iff.mp hothers) (by simpa using hne)
      simpa [List.cons_lt_cons_iff] using hlt

/-! ### Values -/

/-- The value a tree stands for: the tree, with every object that is met by going into lists
replaced by its id. -/
inductive StandsFor : Json → Value → Prop
  | null : StandsFor .null .null
  | bool (b : Bool) : StandsFor (.bool b) (.bool b)
  | int {n : Number} {i : Int64} (h : n.toInt64? = some i) : StandsFor (.number n) (.int i)
  | float {n : Number} (h : n.toInt64? = none) : StandsFor (.number n) (.float n.toFloat)
  | string (s : String) : StandsFor (.string s) (.string s)
  | list {items : List Json} {vs : List Value} (h : List.Forall₂ StandsFor items vs) :
      StandsFor (.array items) (.array vs)
  | object {members : List (String × Json)} {id : Json} {v : Value} (hasId : HasId members)
      (h : Keyed.get? "id" members = some id) (value : StandsFor id v) :
      StandsFor (.object members) v

/-- A number stands for one value. -/
theorem standsFor_number_iff (n : Number) (v : Value) :
  (number n).StandsFor v ↔ Operand.numberValue n = v
  := by
  rw [Operand.numberValue.eq_def]
  constructor
  · intro h
    cases h with
    | int h => rw [h]
    | float h => rw [h]
  · rintro rfl
    split
    · exact .int ‹_›
    · exact .float ‹_›

/-- An object stands for its id. -/
theorem standsFor_object_iff (members : List (String × Json)) (v : Value) :
  (object members).StandsFor v ↔ Operand.idOf? members = some v
  := by
  constructor
  · intro h
    cases h with
    | object hasId h value =>
      rw [Operand.idOf?]
      rcases hasId with hid | hid
      · cases h.symm.trans hid
        rw [h, ← (standsFor_number_iff ..).mp value]
      · cases h.symm.trans hid
        rw [h]
        cases value
        rfl
  · intro h
    rw [Operand.idOf?.eq_def] at h
    split at h
    next n hid =>
      cases h
      apply StandsFor.object (.number hid) hid
      apply (standsFor_number_iff ..).mpr rfl
    next s hid =>
      cases h
      exact .object (.string hid) hid (.string s)
    next => cases h

mutual

/-- The value of the operand a tree is read as is the value the tree stands for. -/
theorem standsFor_iff_exists_isOperand (j : Json) (v : Value) :
  j.StandsFor v ↔ ∃ w, j.IsOperand w ∧ w.toValue = v
  := by
  cases j with
  | null =>
    constructor
    · rintro ⟨⟩
      exact ⟨_, .null, rfl⟩
    · rintro ⟨_, ⟨⟩, rfl⟩
      exact .null
  | bool b =>
    constructor
    · rintro ⟨⟩
      exact ⟨_, .bool b, rfl⟩
    · rintro ⟨_, ⟨⟩, rfl⟩
      exact .bool b
  | number n =>
    constructor
    · rintro (_ | _)
      · exact ⟨_, .int ‹_›, rfl⟩
      · exact ⟨_, .float ‹_›, rfl⟩
    · rintro ⟨_, _ | _, rfl⟩
      · exact .int ‹_›
      · exact .float ‹_›
  | string s =>
    constructor
    · rintro ⟨⟩
      exact ⟨_, .string s, rfl⟩
    · rintro ⟨_, ⟨⟩, rfl⟩
      exact .string s
  | array items =>
    constructor
    · intro h
      cases h with
      | list h =>
        obtain ⟨ws, hws, rfl⟩ := (forall₂_standsFor_iff items _).mp h
        exact ⟨_, .list hws, rfl⟩
    · rintro ⟨_, hw, rfl⟩
      cases hw with
      | list hws => exact .list ((forall₂_standsFor_iff items _).mpr ⟨_, hws, rfl⟩)
  | object members =>
    rw [standsFor_object_iff]
    constructor
    · intro h
      exact ⟨_, .entity h, rfl⟩
    · rintro ⟨_, hw, rfl⟩
      cases hw with
      | entity h => exact h

/-- The items of a list stand for the values of the operands they are read as. -/
theorem forall₂_standsFor_iff (js : List Json) (vs : List Value) :
  List.Forall₂ StandsFor js vs
    ↔ ∃ ws, List.Forall₂ IsOperand js ws ∧ Operand.toValues ws = vs
  := by
  cases js with
  | nil =>
    constructor
    · rintro ⟨⟩
      exact ⟨[], .nil, rfl⟩
    · rintro ⟨_, ⟨⟩, rfl⟩
      exact .nil
  | cons j js =>
    constructor
    · intro h
      cases h with
      | cons hj hjs =>
        obtain ⟨w, hw, rfl⟩ := (standsFor_iff_exists_isOperand j _).mp hj
        obtain ⟨ws, hws, rfl⟩ := (forall₂_standsFor_iff js _).mp hjs
        exact ⟨w :: ws, .cons hw hws, rfl⟩
    · rintro ⟨_, h, rfl⟩
      cases h with
      | cons hw hws =>
        apply List.Forall₂.cons
        · apply (standsFor_iff_exists_isOperand j _).mpr ⟨_, hw, rfl⟩
        · apply (forall₂_standsFor_iff js _).mpr ⟨_, hws, rfl⟩

end

end Json

namespace Operand

/-! ### Decoding -/

theorem ofJson_array (path : String) (items : List Json) :
  ofJson path (.array items) = ofItems path 0 items >>= fun vs => pure (.list vs)
  := by
  rw [ofJson]
  cases ofItems path 0 items <;> rfl

/-- The items of a list are decoded one after the other, each under its index. -/
theorem ofItems_cons (path : String) (i : Nat) (j : Json) (js : List Json) :
  ofItems path i (j :: js) = ofJson (Place.indexed path i) j >>= fun v =>
    ofItems path (i + 1) js >>= fun vs => pure (v :: vs)
  := by
  rw [ofItems, ← Place.indexed]
  cases ofJson (Place.indexed path i) j with
  | error e => rfl
  | ok v => cases ofItems path (i + 1) js <;> rfl

/-- What is done with a result that is there does not fail. -/
theorem bind_pure_eq_error_iff {α β : Type} (x : Except Error α) (f : α → β) (e : Error) :
  (x >>= fun a => pure (f a)) = .error e ↔ x = .error e
  := by
  rw [bind_eq_error_iff, or_iff_left]
  rintro ⟨a, -, ⟨⟩⟩

/-- An operand is decoded exactly when every object has an id. -/
theorem exists_ofJson_iff (path : String) (j : Json) :
  (∃ v, ofJson path j = .ok v) ↔ j.HasIds
  := by simp only [ofJson_eq_ok_iff, Json.exists_isOperand_iff]

mutual

/-- Decoding fails at the first object without id, with the path that leads to it. -/
theorem ofJson_eq_error_iff (path : String) (j : Json) (e : Error) :
  ofJson path j = .error e
    ↔ ∃ indices, j.FirstLacksIdAt indices ∧ e = .option (indices.foldl Place.indexed path) .noId
  := by
  cases j with
  | array items =>
    rw [ofJson_array, bind_pure_eq_error_iff, ofItems_eq_error_iff path 0 items e]
    simp only [Nat.zero_add]
    constructor
    · rintro ⟨i, rest, first, rfl⟩
      exact ⟨i :: rest, first, rfl⟩
    · rintro ⟨_ | ⟨i, rest⟩, first, rfl⟩
      · cases Json.not_lacksIdAt_array_nil _ first.lacks
      · exact ⟨i, rest, first, rfl⟩
  | object members =>
    simp only [Json.firstLacksIdAt_object_iff, ← Json.exists_idOf?_iff]
    rw [ofJson]
    cases idOf? members <;> simp [eq_comm]
  | number n =>
    apply iff_of_false
    · rw [ofJson]
      split <;> rintro ⟨⟩
    · rintro ⟨indices, first, -⟩
      apply Json.not_lacksIdAt_of_scalar _ _ _ first.lacks <;> simp
  | _ =>
    apply iff_of_false
    · rintro ⟨⟩
    · rintro ⟨indices, first, -⟩
      apply Json.not_lacksIdAt_of_scalar _ _ _ first.lacks <;> simp

/-- The items of a list fail to be decoded at the first object without id, whose index is counted
on. -/
theorem ofItems_eq_error_iff (path : String) (k : Nat) (js : List Json) (e : Error) :
  ofItems path k js = .error e
    ↔ ∃ i rest, (Json.array js).FirstLacksIdAt (i :: rest)
      ∧ e = .option (rest.foldl Place.indexed (Place.indexed path (k + i))) .noId
  := by
  cases js with
  | nil =>
    apply iff_of_false
    · rintro ⟨⟩
    · rintro ⟨i, rest, first, -⟩
      apply Json.not_lacksIdAt_nil _ first.lacks
  | cons j js =>
    simp only [ofItems_cons, bind_eq_error_iff (ofJson _ j), bind_pure_eq_error_iff,
      exists_and_right, exists_ofJson_iff, ofJson_eq_error_iff _ j e,
      ofItems_eq_error_iff path (k + 1) js e]
    constructor
    · rintro (⟨rest, first, rfl⟩ | ⟨hasIds, i, rest, first, rfl⟩)
      · exact ⟨0, rest, Json.firstLacksIdAt_zero_iff.mpr first, rfl⟩
      · refine ⟨i + 1, rest, Json.firstLacksIdAt_succ_iff.mpr ⟨hasIds, first⟩, ?_⟩
        rw [Nat.add_assoc, Nat.add_comm 1]
    · rintro ⟨_ | i, rest, first, rfl⟩
      · exact .inl ⟨rest, Json.firstLacksIdAt_zero_iff.mp first, rfl⟩
      · obtain ⟨hasIds, first⟩ := Json.firstLacksIdAt_succ_iff.mp first
        refine .inr ⟨hasIds, i, rest, first, ?_⟩
        rw [Nat.add_assoc, Nat.add_comm 1]

end

/-- Decoding fails exactly when an object is met that has no id, and reports nothing but the
first of these.  Otherwise the value of the operand is the one the tree stands for, whatever else
the objects hold. -/
theorem ofJson_decodes (path : String) (j : Json) :
  ((∃ e, ofJson path j = .error e)
      ↔ ∃ members, j.Reaches (.object members) ∧ ¬ Json.HasId members)
    ∧ (∀ e, ofJson path j = .error e
      ↔ ∃ indices, j.FirstLacksIdAt indices
        ∧ e = .option (indices.foldl Place.indexed path) .noId)
    ∧ ∀ v, (∃ w, ofJson path j = .ok w ∧ w.toValue = v) ↔ j.StandsFor v
  := by
  refine ⟨?_, ofJson_eq_error_iff path j, fun v => ?_⟩
  · have hok := exists_ofJson_iff path j
    rw [Json.HasIds] at hok
    cases h : ofJson path j with
    | error e =>
      rw [h] at hok
      simpa using hok
    | ok w =>
      rw [h] at hok
      simpa using hok
  · simp only [ofJson_eq_ok_iff, Json.standsFor_iff_exists_isOperand]

example :
  ofJson "filters.tags" (.array [.object [("id", .string "a")], .array [.object [], .object []]])
    = .error (.option "filters.tags[1][0]" .noId)
  := by rfl

end Operand

end Shortlist
