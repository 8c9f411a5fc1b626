import Shortlist.Proofs.Criteria.Calls
import Shortlist.Proofs.Criteria.Number

/-!
# Drafts and raw options

Criteria can be put together by calls or read from raw options.  Where the options say what the
calls say, both ways give criteria or neither does, and they give the same criteria.
-/

namespace Shortlist

/-- The id is written as the tree: an integer, a finite double or a string. -/
inductive Value.IsIdWrittenAs : Value → Json → Prop
  | int (n : Int64) : IsIdWrittenAs (.int n) (.number (.whole n.toInt))
  | float {x : Float} (finite : Number.isFinite x = true) :
      IsIdWrittenAs (.float x) (.number (.real x))
  | string (s : String) : IsIdWrittenAs (.string s) (.string s)

/-- The operand is written as the tree.  An entity is written as any object with its id. -/
inductive Operand.IsWrittenAs : Operand → Json → Prop
  | null : IsWrittenAs .null .null
  | bool (b : Bool) : IsWrittenAs (.bool b) (.bool b)
  | int (n : Int64) : IsWrittenAs (.int n) (.number (.whole n.toInt))
  | float {x : Float} (finite : Number.isFinite x = true) :
      IsWrittenAs (.float x) (.number (.real x))
  | string (s : String) : IsWrittenAs (.string s) (.string s)
  | list {vs : List Operand} {items : List Json} (h : List.Forall₂ IsWrittenAs vs items) :
      IsWrittenAs (.list vs) (.array items)
  | entity {id : Value} {j : Json} {members : List (String × Json)} (h : id.IsIdWrittenAs j)
      (member : Keyed.get? "id" members = some j) : IsWrittenAs (.entity id) (.object members)

/-- An integer of 64 bits is read back from the number that stands for it. -/
theorem Json.Number.toInt64?_toInt (n : Int64) :
  (Number.whole n.toInt).toInt64? = some n
  := Shortlist.Number.toInt64?_toInt n

/-- An object with an id written down is read as an entity with this id. -/
theorem Operand.idOf?_of_isIdWrittenAs {id : Value} {j : Json} {members : List (String × Json)}
    (h : id.IsIdWrittenAs j) (member : Keyed.get? "id" members = some j) :
  idOf? members = some id
  := by
  rw [idOf?, member]
  cases h with
  | int n => simp [numberValue, Json.Number.toInt64?_toInt]
  | float _ => rfl
  | string s => rfl

mutual

/-- A tree an operand is written as is read as the operand. -/
theorem Operand.IsWrittenAs.isOperand {v : Operand} {j : Json} (h : v.IsWrittenAs j) :
  j.IsOperand v
  := by
  cases h with
  | null => exact .null
  | bool b => exact .bool b
  | int n => exact .int (Json.Number.toInt64?_toInt n)
  | float _ => exact .float rfl
  | string s => exact .string s
  | list h => exact .list (Operand.isOperands_of_forall₂ h)
  | entity h member => exact .entity (Operand.idOf?_of_isIdWrittenAs h member)

/-- Operands that are written as items, one for one, are what the items are read as. -/
theorem Operand.isOperands_of_forall₂ {vs : List Operand} {items : List Json}
    (h : List.Forall₂ Operand.IsWrittenAs vs items) :
  List.Forall₂ Json.IsOperand items vs
  := by
  cases h with
  | nil => exact .nil
  | cons h hs => exact .cons h.isOperand (Operand.isOperands_of_forall₂ hs)

end

namespace Criteria

/-! ### Options that are written down -/

/-- The number of items and of the page are written as whole numbers. -/
def numberTree (n : UInt32) : Json := .number (.whole n.toNat)

/-- An order term is written with its direction. -/
def termTree (e : String × Direction) : Json :=
  .object [("by", .string e.1), ("dir", .string e.2.tag)]

/-- The operator of a field is written as its tag. -/
def operatorMember (e : String × Operator) : String × Json := (e.1, .string e.2.tag)

/-- The member is written for the operand of a field. -/
structure IsFilterMember (m : String × Json) (e : String × Operand) : Prop where
  name : m.1 = e.1
  operand : e.2.IsWrittenAs m.2

theorem isInteger_numberTree_iff (n m : UInt32) :
  (numberTree n).IsInteger m.toNat ↔ m = n
  := by
  constructor
  · intro h
    rw [numberTree] at h
    generalize hm : (m.toNat : Int) = k at h
    cases h
    apply UInt32.toNat_inj.mp (Int.ofNat_inj.mp hm)
  · rintro rfl
    apply Json.IsInteger.whole

/-- A number that is written down is read back as the number of items. -/
theorem readItems_numberTree (n : UInt32) :
  readItems (numberTree n) = .ok n
  := (readItems_eq_ok_iff ..).mpr ((isInteger_numberTree_iff n n).mpr rfl)

/-- Of all numbers zero alone is no page. -/
theorem readPage_numberTree_eq_ok_iff (n m : UInt32) :
  readPage (numberTree n) = .ok m ↔ n ≠ 0 ∧ m = n
  := by
  have hpos : 1 ≤ n.toNat ↔ n ≠ 0 := by
    rw [Nat.one_le_iff_ne_zero, ne_eq, ne_eq, ← UInt32.toNat_inj, UInt32.toNat_zero]
  rw [readPage_eq_ok_iff, isInteger_numberTree_iff, and_comm]
  apply and_congr_left
  rintro rfl
  exact hpos

/-- An order term that is written down is read as itself and as nothing else. -/
theorem isOrderTerm_termTree_iff (e : String × Direction) (t : OrderTerm) :
  IsOrderTerm (termTree e) t ↔ e = (t.field.text, t.direction)
  := by
  obtain ⟨s, d⟩ := e
  have htoken : Direction.ofToken? d.tag = some d := by cases d <;> decide
  constructor
  · intro h
    cases h with
    | mk known field direction =>
      obtain rfl : s = t.field.text := by simpa [Keyed.get?] using field
      cases direction with
      | token hd => exact congrArg _ (Option.some.inj (htoken.symm.trans hd))
  · rintro ⟨⟩
    apply IsOrderTerm.mk
    · simp [Keyed.keys]
    · rfl
    · exact .token htoken

/-- Order terms that are written down are read as themselves, or not at all. -/
theorem readOrder_termTrees_eq_ok_iff (order : List (String × Direction)) (ts : List OrderTerm) :
  readOrder (.array (order.map termTree)) = .ok ts
    ↔ order = ts.map fun t => (t.field.text, t.direction)
  := by
  rw [readOrder, readOrderTerms_eq_ok_iff, List.forall₂_map_left_iff]
  simp only [isOrderTerm_termTree_iff]
  rw [← List.forall₂_eq_eq_eq, List.forall₂_map_right_iff]

/-- Filters that are written down are read as themselves, or not at all. -/
theorem readFilters_object_eq_ok_iff {ms : List (String × Json)} {es : List (String × Operand)}
    (h : List.Forall₂ IsFilterMember ms es) (fs : List Filter) :
  readFilters (.object ms) = .ok fs ↔ es = fs.map fun f => (f.field.text, f.operand)
  := by
  rw [readFilters, readFilterMembers_eq_ok_iff]
  induction h generalizing fs with
  | nil => cases fs <;> simp
  | @cons m e ms es hm hms ih =>
    cases fs with
    | nil => simp
    | cons f fs =>
      rw [List.forall₂_cons, List.map_cons, List.cons.injEq, ih]
      have hf : IsFilter m f ↔ e = (f.field.text, f.operand) := by
        constructor
        · intro hf
          have hname := hm.name.symm.trans hf.name
          have hoperand := hm.operand.isOperand.unique hf.operand
          exact Prod.ext hname hoperand
        · rintro rfl
          exact ⟨hm.name, hm.operand.isOperand⟩
      rw [hf]

/-- Operators that are written down are read as their table, exactly when all their names are
fields. -/
theorem readOperators_object_eq_ok_iff (ops : List (String × Operator)) (t : Operators) :
  readOperators (.object (ops.map operatorMember)) = .ok t
    ↔ (∀ field ∈ Keyed.keys ops, isFieldReference field = true) ∧ t = .insertAll .empty ops
  := by
  have hentry (e e' : String × Operator) : IsOperatorEntry (operatorMember e) e'
      ↔ isFieldReference e.1 = true ∧ e = e' := by
    constructor
    · rintro ⟨hname, valid, _, ⟨⟩, htag⟩
      rw [Operator.ofTag?_tag] at htag
      exact ⟨valid, Prod.ext hname (Option.some.inj htag)⟩
    · rintro ⟨valid, rfl⟩
      exact ⟨rfl, valid, _, rfl, e.2.ofTag?_tag⟩
  rw [readOperators, readOperatorMembers_eq_ok_iff]
  simp only [List.forall₂_map_left_iff, hentry, List.forall₂_and_left, List.forall₂_eq_eq_eq,
    Keyed.keys, List.forall_mem_map]
  constructor
  · rintro ⟨_, ⟨valid, rfl⟩, rfl⟩
    exact ⟨valid, rfl⟩
  · rintro ⟨valid, rfl⟩
    exact ⟨ops, ⟨valid, rfl⟩, rfl⟩

/-! ### Agreement -/

open Draft (Call)

/-- The members of an option object say what calls say: the last number of items, page,
grouping and treatment of null, all order terms in order, every filtered field at its first
place with its last operand, and for every field its last operator. -/
structure IsOptions (calls : List Call) (members : List (String × Json)) : Prop where
  known : ∀ name ∈ Keyed.keys members, name ∈ optionNames
  items : Keyed.get? "items" members = (Call.last? Call.items? calls).map numberTree
  page : Keyed.get? "page" members = (Call.last? Call.page? calls).map numberTree
  order : Keyed.get? "order" members = some (.array ((calls.filterMap Call.term?).map termTree))
  filters : ∃ ms, Keyed.get? "filters" members = some (.object ms)
    ∧ List.Forall₂ IsFilterMember ms (Keyed.latest (calls.filterMap Call.filter?))
  operators : ∃ ops : List (String × Operator),
    Keyed.get? "operators" members = some (.object (ops.map operatorMember))
      ∧ ops.Perm (Keyed.latest (calls.filterMap Call.operator?))
  grouping : Keyed.get? "group_by" members = (Call.last? Call.grouping? calls).map .string
  skipNull : Keyed.get? "skip_null_values" members = (Call.last? Call.skipNull? calls).map .bool

/-- The members that are there. -/
def present (ms : List (String × Option Json)) : List (String × Json) :=
  ms.filterMap fun m => m.2.map (m.1, ·)

theorem mem_keys_of_present {ms : List (String × Option Json)} {name : String}
    (h : name ∈ Keyed.keys (present ms)) :
  name ∈ Keyed.keys ms
  := by
  obtain ⟨_, hpresent, rfl⟩ := List.mem_map.mp h
  obtain ⟨m, hm, hj⟩ := List.mem_filterMap.mp hpresent
  obtain ⟨j, -, rfl⟩ := Option.map_eq_some_iff.mp hj
  exact List.mem_map.mpr ⟨m, hm, rfl⟩

/-- What is present under a name is what the list has there, if it has something. -/
theorem get?_present {ms : List (String × Option Json)} (distinct : (Keyed.keys ms).Nodup)
    (name : String) :
  Keyed.get? name (present ms) = (Keyed.get? name ms).join
  := by
  induction ms with
  | nil => rfl
  | cons m ms ih =>
    obtain ⟨other, j?⟩ := m
    obtain ⟨hother, hms⟩ := List.nodup_cons.mp distinct
    cases j? with
    | some j =>
      change Keyed.get? name ((other, j) :: present ms) = _
      rw [Keyed.get?, Keyed.get?, ih hms]
      split <;> rfl
    | none =>
      change Keyed.get? name (present ms) = _
      rw [Keyed.get?]
      split_ifs with h
      · subst h
        apply (Keyed.get?_eq_none_iff ..).mpr
        intro h
        apply hother (mem_keys_of_present h)
      · apply ih hms

/-- For every option what calls say of it, given the members of the filters. -/
def said (calls : List Call) (filters : List (String × Json)) : List (String × Option Json) :=
  [("items", (Call.last? Call.items? calls).map numberTree),
    ("page", (Call.last? Call.page? calls).map numberTree),
    ("order", some (.array ((calls.filterMap Call.term?).map termTree))),
    ("filters", some (.object filters)),
    ("operators", some
      (.object ((Keyed.latest (calls.filterMap Call.operator?)).map operatorMember))),
    ("group_by", (Call.last? Call.grouping? calls).map .string),
    ("skip_null_values", (Call.last? Call.skipNull? calls).map .bool)]

/-- Whatever the calls are, there are options that say what they say, as long as the operands can
be written. -/
theorem isOptions_present_said {calls : List Call} {filters : List (String × Json)}
    (h : List.Forall₂ IsFilterMember filters (Keyed.latest (calls.filterMap Call.filter?))) :
  IsOptions calls (present (said calls filters))
  := by
  have distinct : (Keyed.keys (said calls filters)).Nodup := by
    change optionNames.Nodup
    decide
  constructor
  · intro name hname
    apply mem_keys_of_present hname
  · apply get?_present distinct
  · apply get?_present distinct
  · apply get?_present distinct
  · use filters
    constructor
    · apply get?_present distinct
    · exact h
  · use Keyed.latest (calls.filterMap Call.operator?)
    constructor
    · apply get?_present distinct
    · rfl
  · apply get?_present distinct
  · apply get?_present distinct

/-- An option is given exactly when something was said. -/
theorem option?_eq {α : Type} {members : List (String × Json)} {name : String}
    {said? : Option α} {tree : α → Json} (h : Keyed.get? name members = said?.map tree)
    (notNull : ∀ a, (tree a).isNull = false) :
  option? members name = said?.map tree
  := by
  rw [option?, h]
  cases said? with
  | none => rfl
  | some a => simp [Option.filter_some, notNull]

namespace IsOptions

variable {calls : List Call} {members : List (String × Json)}

/-- The options and the draft have the same number of items. -/
theorem items_iff (h : IsOptions calls members) (n : UInt32) :
  orStandard standard.items readItems (option? members "items") = .ok n
    ↔ n = (Draft.ofCalls calls).items
  := by
  rw [option?_eq h.items fun _ => rfl, Draft.ofCalls]
  cases Call.last? Call.items? calls with
  | none => simp [orStandard, eq_comm]
  | some m => simp [orStandard, readItems_numberTree, eq_comm]

/-- The options and the draft have the same page, and both refuse page zero. -/
theorem page_iff (h : IsOptions calls members) (n : UInt32) :
  orStandard standard.page readPage (option? members "page") = .ok n
    ↔ (Draft.ofCalls calls).page ≠ 0 ∧ n = (Draft.ofCalls calls).page
  := by
  rw [option?_eq h.page fun _ => rfl, Draft.ofCalls]
  cases Call.last? Call.page? calls with
  | none =>
    have hone : standard.page ≠ 0 := by decide
    simp [orStandard, hone, eq_comm]
  | some m => simp [orStandard, readPage_numberTree_eq_ok_iff]

/-- The options and the draft have the same order terms. -/
theorem order_iff (h : IsOptions calls members) (ts : List OrderTerm) :
  orStandard standard.order readOrder (option? members "order") = .ok ts
    ↔ (Draft.ofCalls calls).order = ts.map fun t => (t.field.text, t.direction)
  := by
  rw [option?, h.order]
  apply readOrder_termTrees_eq_ok_iff

/-- The options and the draft have the same filters. -/
theorem filters_iff (h : IsOptions calls members) (fs : List Filter) :
  orStandard standard.filters readFilters (option? members "filters") = .ok fs
    ↔ (Draft.ofCalls calls).filters = fs.map fun f => (f.field.text, f.operand)
  := by
  obtain ⟨ms, hget, hms⟩ := h.filters
  rw [option?, hget]
  apply readFilters_object_eq_ok_iff hms

/-- The options and the draft have the same table, and both refuse names that are no fields. -/
theorem operators_iff (h : IsOptions calls members) (t : Operators) :
  orStandard standard.operators readOperators (option? members "operators") = .ok t
    ↔ (∀ field ∈ Keyed.keys (Draft.ofCalls calls).operators, isFieldReference field = true)
      ∧ t = .insertAll .empty (Draft.ofCalls calls).operators
  := by
  obtain ⟨ops, hget, hops⟩ := h.operators
  rw [option?, hget]
  apply (readOperators_object_eq_ok_iff ops t).trans
  rw [Operators.insertAll_empty_eq (Keyed.get?_reverse_of_perm_latest hops)]
  simp only [Keyed.mem_keys_of_perm_latest hops, Draft.ofCalls]

/-- The options and the draft have the same grouping, with an empty text for none. -/
theorem grouping_iff (h : IsOptions calls members) (g : Option Field) :
  orStandard standard.grouping? readGrouping (option? members "group_by") = .ok g
    ↔ g.map (·.text) = (Draft.ofCalls calls).grouping?.filter (!·.isEmpty)
  := by
  rw [option?_eq h.grouping fun _ => rfl, Draft.ofCalls]
  cases Call.last? Call.grouping? calls with
  | none => simp [orStandard, standard, eq_comm]
  | some s =>
    rw [Option.filter_some]
    apply (readGrouping_eq_ok_iff s g).trans
    cases s.isEmpty <;> rfl

/-- The options and the draft treat null alike. -/
theorem skipNull_iff (h : IsOptions calls members) (b : Bool) :
  orStandard standard.skipNull readSkipNull (option? members "skip_null_values") = .ok b
    ↔ b = (Draft.ofCalls calls).skipNull
  := by
  rw [option?_eq h.skipNull fun _ => rfl, Draft.ofCalls]
  cases Call.last? Call.skipNull? calls with
  | none => simp [orStandard, eq_comm]
  | some b' => simp [orStandard, readSkipNull, eq_comm]

end IsOptions

/-- Criteria are built of what calls make of the new draft exactly when they are read from
options that say what the calls say. -/
theorem build_performAll_eq_ok_iff {calls : List Call} {members : List (String × Json)}
    (h : IsOptions calls members) (c : Criteria) :
  (Draft.new.performAll calls).build = .ok c ↔ ofOptions (.object members) = .ok c
  := by
  -- both ways have an exact condition with a part for every option, and the parts agree
  rw [Draft.performAll_new, Draft.build_eq_ok_iff, ofOptions, ofMembers_eq_ok_iff, h.items_iff,
    h.page_iff, h.order_iff, h.filters_iff, h.operators_iff, h.grouping_iff, h.skipNull_iff]
  constructor
  · intro hc
    exact ⟨h.known, hc⟩
  · intro hc
    exact hc.2

/-- Calls that filter a field by entities and then by another entity, choose the operator of a
field twice and set an empty grouping, and options that say the same. -/
theorem build_performAll_eq_ok_iff_posts :
  ∃ (calls : List Call) (members : List (String × Json)) (c : Criteria),
    IsOptions calls members ∧ (Draft.new.performAll calls).build = .ok c
      ∧ ofOptions (.object members) = .ok c
      ∧ Keyed.keys members = ["page", "order", "filters", "operators", "group_by"]
      ∧ c.filters.map (·.field.text) = ["author", "id"]
      ∧ c.operators.entries = [("author", "in"), ("id", "lt")] ∧ c.page = 2
      ∧ c.grouping? = none
  := by
  let ann : Operand := .entity (.int 3)
  let bob : Operand := .entity (.string "bob")
  let calls : List Call := [.filter "author" bob, .operator "id" .gte, .filter "id" (.int 7),
    .setPage 0, .orderBy "post.rank" .descending, .filter "author" (.list [ann, bob]),
    .groupBy "", .operator "author" .isIn, .operator "id" .lt, .setPage 2]
  let annTree : Json := .object [("name", .string "Ann"), ("id", .number (.whole 3))]
  let bobTree : Json := .object [("id", .string "bob")]
  let filters : List (String × Json) :=
    [("author", .array [annTree, bobTree]), ("id", .number (.whole 7))]
  have hauthors : Operand.IsWrittenAs (.list [ann, bob]) (.array [annTree, bobTree]) :=
    .list (.cons (.entity (.int 3) rfl) (.cons (.entity (.string "bob") rfl) .nil))
  have hfilters :
      List.Forall₂ IsFilterMember filters [("author", .list [ann, bob]), ("id", .int 7)] :=
    .cons ⟨rfl, hauthors⟩ (.cons ⟨rfl, .int 7⟩ .nil)
  have h : IsOptions calls (present (said calls filters)) := isOptions_present_said hfilters
  have hbuild : (Draft.new.performAll calls).build.toOption.map (fun c =>
      (c.filters.map (·.field.text), c.operators.entries, c.page, c.grouping?))
      = some (["author", "id"], [("author", "in"), ("id", "lt")], 2, none) := by decide +kernel
  cases hc : (Draft.new.performAll calls).build with
  | error e =>
    rw [hc] at hbuild
    cases hbuild
  | ok c =>
    rw [hc] at hbuild
    simp only [Except.toOption, Option.map_some, Option.some.injEq, Prod.mk.injEq] at hbuild
    obtain ⟨hnames, hoperators, hpage, hgrouping⟩ := hbuild
    exact ⟨calls, _, c, h, hc, (build_performAll_eq_ok_iff h c).mp hc, by decide +kernel, hnames,
      hoperators, hpage, hgrouping⟩

end Criteria

end Shortlist
