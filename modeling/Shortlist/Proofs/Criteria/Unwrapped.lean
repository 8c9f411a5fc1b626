import Shortlist.Proofs.Clause.Unwrapped
import Shortlist.Proofs.Criteria.Grammar

/-!
# Raw options with ids in place of objects

An object among the filters is read as an entity, and its id as the value that the id is.  So
where ids are written in place of objects the options are refused for the same reason, at the
same path, or are read as criteria with ids in place of entities.
-/

namespace Shortlist

/-- The results are values that are related, or the same error. -/
inductive Alike {α β : Type} (R : α → β → Prop) : Except Error α → Except Error β → Prop
  | ok {a : α} {b : β} (h : R a b) : Alike R (.ok a) (.ok b)
  | error (e : Error) : Alike R (.error e) (.error e)

namespace Alike

variable {α β γ δ : Type} {R : α → β → Prop} {S : γ → δ → Prop}

/-- Equal results are alike. -/
theorem of_eq {R : α → α → Prop} (refl : ∀ a, R a a) {x y : Except Error α} (h : y = x) :
  Alike R x y
  := by
  rw [h]
  cases x with
  | error e => apply Alike.error
  | ok a => apply Alike.ok (refl a)

/-- Alike results stay alike when one goes on with each alike. -/
theorem bind {x : Except Error α} {y : Except Error β} {next : α → Except Error γ}
    {next' : β → Except Error δ} (h : Alike R x y)
    (hnext : ∀ a b, x = .ok a → R a b → Alike S (next a) (next' b)) :
  Alike S (x >>= next) (y >>= next')
  := by
  cases h with
  | error e => apply Alike.error
  | ok h => apply hnext _ _ rfl h

/-- As `bind`, where the results are the same. -/
theorem bind_of_eq {x y : Except Error α} {next : α → Except Error γ}
    {next' : α → Except Error δ} (h : y = x)
    (hnext : ∀ a, x = .ok a → Alike S (next a) (next' a)) :
  Alike S (x >>= next) (y >>= next')
  := by
  apply bind (of_eq (fun _ => rfl) h)
  rintro a _ ha rfl
  apply hnext a ha

end Alike

/-! ### Operands -/

/-- The second tree is the first with some objects, at any depth of lists, replaced by their
ids. -/
inductive Json.Unwraps : Json → Json → Prop
  | keep (j : Json) : Unwraps j j
  | array {js js' : List Json} (h : List.Forall₂ Unwraps js js') :
      Unwraps (.array js) (.array js')
  | number {members : List (String × Json)} {n : Json.Number}
      (h : Keyed.get? "id" members = some (.number n)) : Unwraps (.object members) (.number n)
  | string {members : List (String × Json)} {s : String}
      (h : Keyed.get? "id" members = some (.string s)) : Unwraps (.object members) (.string s)

namespace Operand

/-- A number is read as the operand that its value is given as. -/
theorem exists_ofJson_number (path : String) (n : Json.Number) :
  ∃ v, ofJson path (.number n) = .ok v ∧ (numberValue n).operand? = some v
  := by
  rw [ofJson, numberValue]
  cases n.toInt64? with
  | some i => exact ⟨.int i, rfl, rfl⟩
  | none => exact ⟨.float n.toFloat, rfl, rfl⟩

mutual

/-- Where ids stand in place of objects, a tree is decoded alike. -/
theorem ofJson_alike (path : String) {j j' : Json} (h : j.Unwraps j') :
  Alike Unwraps (ofJson path j) (ofJson path j')
  := by
  cases h with
  | keep => apply Alike.of_eq Unwraps.keep rfl
  | array h =>
    have hitems := ofItems_alike path 0 h
    rw [ofJson, ofJson]
    generalize ofItems path 0 _ = x at hitems
    generalize ofItems path 0 _ = y at hitems
    cases hitems with
    | error e => apply Alike.error
    | ok h => apply Alike.ok (.list h)
  | @number members n hid =>
    obtain ⟨v, hv, hoperand⟩ := exists_ofJson_number path n
    have hid : idOf? members = some (numberValue n) := by rw [idOf?, hid]
    rw [hv, ofJson, hid]
    apply Alike.ok (.id hoperand)
  | @string members s hid =>
    have hid : idOf? members = some (.string s) := by rw [idOf?, hid]
    rw [ofJson, ofJson, hid]
    apply Alike.ok (.id rfl)

/-- Where ids stand in place of objects, items are decoded alike, under the same indices. -/
theorem ofItems_alike (path : String) (i : Nat) {js js' : List Json}
    (h : List.Forall₂ Json.Unwraps js js') :
  Alike (List.Forall₂ Unwraps) (ofItems path i js) (ofItems path i js')
  := by
  cases h with
  | nil => apply Alike.ok .nil
  | cons h hs =>
    have hitem := ofJson_alike (path ++ "[" ++ Number.natText i ++ "]") h
    have hitems := ofItems_alike path (i + 1) hs
    rw [ofItems, ofItems]
    generalize ofJson _ _ = x at hitem
    generalize ofJson _ _ = y at hitem
    generalize ofItems _ _ _ = xs at hitems
    generalize ofItems _ _ _ = ys at hitems
    cases hitem with
    | error e => apply Alike.error
    | ok h =>
      cases hitems with
      | error e => apply Alike.error
      | ok hs => apply Alike.ok (.cons h hs)

end

end Operand

/-! ### Filters -/

/-- The second member has the name of the first, and its tree with some objects replaced by
their ids, which is done only under names that are allowed. -/
structure Json.MemberUnwraps (allowed : String → Prop) (m m' : String × Json) : Prop where
  name : m'.1 = m.1
  tree : m'.2 = m.2 ∨ allowed m.1 ∧ m.2.Unwraps m'.2

/-- Replacing entities in fewer filters replaces them in more. -/
theorem Filter.Unwraps.imp {allowed allowed' : String → Prop} {f f' : Filter}
    (h : f.Unwraps allowed f') (imp : ∀ name, allowed name → allowed' name) :
  f.Unwraps allowed' f'
  := ⟨h.field, h.operand.imp_right (And.imp_left (imp _))⟩

theorem Filter.Unwraps.refl (allowed : String → Prop) (f : Filter) :
  f.Unwraps allowed f
  := ⟨rfl, .inl rfl⟩

namespace Criteria

/-- The second criteria are the first with entities of some filters replaced by their ids, which
is done only for fields that are allowed. -/
structure Unwraps (allowed : String → Prop) (c c' : Criteria) : Prop where
  filters : List.Forall₂ (Filter.Unwraps allowed) c.filters c'.filters
  rest : c' = { c with filters := c'.filters }

/-- Where ids stand in place of objects, filters are read alike, member by member. -/
theorem readFilterMembers_alike {allowed : String → Prop} {ms ms' : List (String × Json)}
    (h : List.Forall₂ (Json.MemberUnwraps allowed) ms ms') :
  Alike (List.Forall₂ (Filter.Unwraps allowed)) (readFilterMembers ms) (readFilterMembers ms')
  := by
  induction h with
  | nil => apply Alike.ok .nil
  | @cons m m' ms ms' h hs ih =>
    obtain ⟨name, j⟩ := m
    obtain ⟨_, j'⟩ := m'
    obtain ⟨rfl, htree⟩ := h
    rw [readFilterMembers, readFilterMembers]
    apply Alike.bind_of_eq rfl
    intro field hfield
    obtain rfl := (Field.parse_eq_ok_iff ..).mp hfield
    rcases htree with rfl | ⟨hallowed, htree⟩
    · apply Alike.bind_of_eq rfl
      intro v _
      apply Alike.bind ih
      intro fs fs' _ hfs
      apply Alike.ok (.cons (.refl ..) hfs)
    · apply Alike.bind (Operand.ofJson_alike _ htree)
      intro v v' _ hv
      apply Alike.bind ih
      intro fs fs' _ hfs
      apply Alike.ok (.cons ⟨rfl, .inr ⟨hallowed, hv⟩⟩ hfs)

/-! ### Options -/

/-- Whatever table is read from the options, it has no operator with a pattern for the field. -/
def TakesNoPattern (members : List (String × Json)) (field : String) : Prop :=
  ∀ t, orStandard standard.operators readOperators (option? members "operators") = .ok t →
    t.HasNoPattern field

/-- The second option is the first, or both are filters and in the second one some objects are
replaced by their ids. -/
inductive OptionUnwraps (allowed : String → Prop) : String × Json → String × Json → Prop
  | keep (m : String × Json) : OptionUnwraps allowed m m
  | filters {ms ms' : List (String × Json)}
      (h : List.Forall₂ (Json.MemberUnwraps allowed) ms ms') :
      OptionUnwraps allowed ("filters", .object ms) ("filters", .object ms')

section Options

variable {allowed : String → Prop} {members members' : List (String × Json)}

/-- The options have the same names. -/
theorem keys_eq_of_optionUnwraps (h : List.Forall₂ (OptionUnwraps allowed) members members') :
  Keyed.keys members' = Keyed.keys members
  := by
  induction h with
  | nil => rfl
  | cons h _ ih =>
    cases h with
    | keep => exact congrArg (_ :: ·) ih
    | filters => exact congrArg (_ :: ·) ih

/-- Under another name than that of the filters the same option is found. -/
theorem option?_eq_of_optionUnwraps
    (h : List.Forall₂ (OptionUnwraps allowed) members members') {name : String}
    (hname : "filters" ≠ name) :
  option? members' name = option? members name
  := by
  rw [option?, option?]
  congr 1
  induction h with
  | nil => rfl
  | cons h _ ih =>
    cases h with
    | keep m => rw [Keyed.get?, Keyed.get?, ih]
    | filters => rw [Keyed.get?, Keyed.get?, if_neg hname, if_neg hname, ih]

/-- The filters among the options are read alike. -/
theorem readFilters_alike (h : List.Forall₂ (OptionUnwraps allowed) members members') :
  Alike (List.Forall₂ (Filter.Unwraps allowed))
    (orStandard standard.filters readFilters (option? members "filters"))
    (orStandard standard.filters readFilters (option? members' "filters"))
  := by
  have same (o : Option Json) : Alike (List.Forall₂ (Filter.Unwraps allowed))
      (orStandard standard.filters readFilters o) (orStandard standard.filters readFilters o) := by
    apply Alike.of_eq _ rfl
    intro fs
    rw [List.forall₂_same]
    intro f _
    apply Filter.Unwraps.refl
  induction h with
  | nil => apply same
  | @cons m _ _ _ h _ ih =>
    cases h with
    | keep =>
      rw [option?, option?, Keyed.get?, Keyed.get?]
      split
      · apply same
      · exact ih
    | filters h =>
      apply readFilterMembers_alike h

/-- Whether a name is unknown does not depend on the trees of the options. -/
theorem find?_unknown_eq {members members' : List (String × Json)}
    (h : Keyed.keys members' = Keyed.keys members) :
  (members'.find? (!optionNames.contains ·.1)).map (·.1)
    = (members.find? (!optionNames.contains ·.1)).map (·.1)
  := by
  have hmap (ms : List (String × Json)) :
      (ms.find? (!optionNames.contains ·.1)).map (·.1)
        = (Keyed.keys ms).find? (!optionNames.contains ·) := by
    rw [Keyed.keys, List.find?_map]
    rfl
  rw [hmap, hmap, h]

/-- Option objects are read alike, when objects are replaced under names that take no pattern. -/
theorem ofMembers_alike
    (h : List.Forall₂ (OptionUnwraps (TakesNoPattern members)) members members') :
  Alike (fun c c' => c.Unwraps c.operators.HasNoPattern c') (ofMembers members)
    (ofMembers members')
  := by
  have hunknown := find?_unknown_eq (keys_eq_of_optionUnwraps h)
  have hoption {name : String} (hname : "filters" ≠ name) := option?_eq_of_optionUnwraps h hname
  rw [ofMembers, ofMembers]
  generalize members'.find? _ = o' at hunknown ⊢
  generalize members.find? _ = o at hunknown ⊢
  rcases o with - | ⟨name, j⟩ <;> rcases o' with - | ⟨name', j'⟩
  case none.some => cases hunknown
  case some.none => cases hunknown
  case some.some =>
    obtain rfl : name' = name := Option.some.inj hunknown
    apply Alike.error
  case none.none =>
    -- all options but the filters are found and read as before
    apply Alike.bind_of_eq (by rw [hoption (by decide)])
    intro items _
    apply Alike.bind_of_eq (by rw [hoption (by decide)])
    intro page _
    apply Alike.bind_of_eq (by rw [hoption (by decide)])
    intro order _
    apply Alike.bind (readFilters_alike h)
    intro filters filters' _ hfilters
    apply Alike.bind_of_eq (by rw [hoption (by decide)])
    intro operators hoperators
    apply Alike.bind_of_eq (by rw [hoption (by decide)])
    intro grouping? _
    apply Alike.bind_of_eq (by rw [hoption (by decide)])
    intro skipNull _
    apply Alike.ok
    constructor
    · apply hfilters.imp
      intro f f' hf
      apply hf.imp
      intro name hname
      apply hname operators hoperators
    · rfl

end Options

end Criteria

end Shortlist
