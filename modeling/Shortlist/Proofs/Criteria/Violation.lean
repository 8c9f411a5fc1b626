import Shortlist.Proofs.Criteria.Accepted

/-!
# Violations

Raw options may break the grammar at many places at once.  Which places these are does not depend
on any order; the places themselves are ordered, and an error that reports the violation at a
place says no more of it than the place's culprit: the path of an option or the name of a field.
-/

namespace Shortlist

/-- A place of a tree of raw options at which the grammar can be broken.  Members of an object are
numbered as they are declared, and given with their name. -/
inductive Place where
  | document
  | unknown (k : Nat) (name : String)
  | items
  | page
  | order
  | term (i : Nat)
  | termMember (i k : Nat) (name : String)
  | termField (i : Nat)
  | termDirection (i : Nat)
  | filters
  | positional
  | filterKey (k : Nat) (name : String)
  | operand (k : Nat) (name : String) (indices : List Nat)
  | operators
  | operatorKey (k : Nat) (name : String)
  | operatorTag (k : Nat) (name : String)
  | grouping
  | skipNull

/-- What an error names. -/
inductive Culprit where
  | option (path : String)
  | field (name : String)
  deriving DecidableEq

/-- The option or the field that an error of the reader names. -/
def Error.culprit? : Error → Option Culprit
  | .option path _ => some (.option path)
  | .field name _ => some (.field name)
  | _ => none

namespace Place

/-- The places are ordered by their ranks, which compare number by number. -/
def rank : Place → List Nat
  | .document => [0]
  | .unknown k _ => [1, k]
  | .items => [2]
  | .page => [3]
  | .order => [4]
  | .term i => [4, i]
  | .termMember i k _ => [4, i, 0, k]
  | .termField i => [4, i, 1]
  | .termDirection i => [4, i, 2]
  | .filters => [5]
  | .positional => [5]
  | .filterKey k _ => [5, k, 0]
  | .operand k _ indices => 5 :: k :: 1 :: indices
  | .operators => [6]
  | .operatorKey k _ => [6, k, 0]
  | .operatorTag k _ => [6, k, 1]
  | .grouping => [7]
  | .skipNull => [8]

/-- The path with the index of a list after it. -/
def indexed (path : String) (i : Nat) : String := path ++ "[" ++ Number.natText i ++ "]"

/-- The path of an order term. -/
def termPath (i : Nat) : String := indexed "order" i

/-- The path of a tree in the operand of a field. -/
def operandPath (name : String) (indices : List Nat) : String :=
  indices.foldl indexed ("filters." ++ name)

/-- What an error names that reports a violation at the place.  A member of the filters that is no
field is named itself, and so is the first member of a list in their place; everything else is
named by its path. -/
def culprit : Place → Culprit
  | .document => .option "$"
  | .unknown _ name => .option name
  | .items => .option "items"
  | .page => .option "page"
  | .order => .option "order"
  | .term i => .option (termPath i)
  | .termMember i _ name => .option (termPath i ++ "." ++ name)
  | .termField i => .option (termPath i ++ ".by")
  | .termDirection i => .option (termPath i ++ ".dir")
  | .filters => .option "filters"
  | .positional => .field "0"
  | .filterKey _ name => .field name
  | .operand _ name indices => .option (operandPath name indices)
  | .operators => .option "operators"
  | .operatorKey _ name => .option ("operators." ++ name)
  | .operatorTag _ name => .option ("operators." ++ name)
  | .grouping => .option "group_by"
  | .skipNull => .option "skip_null_values"

/-- The place is the first of those that violate something. -/
structure IsFirst (V : Place → Prop) (p : Place) : Prop where
  violated : V p
  first : ∀ q, V q → q ≠ p → p.rank < q.rank

end Place

/-- The places at which a list violates something, from what its members violate. -/
def Along {α : Type} (V : Nat → α → Place → Prop) (as : List α) (p : Place) : Prop :=
  ∃ i a, as[i]? = some a ∧ V i a p

namespace Criteria

/-- The option is there and not null. -/
def Given (members : List (String × Json)) (name : String) (j : Json) : Prop :=
  Keyed.get? name members = some j ∧ j ≠ .null

/-- The places at which a tree violates the grammar of an order term, which has index `i`. -/
inductive TermViolates (i : Nat) : Json → Place → Prop
  | term {j : Json} (h : ∀ members, j ≠ .object members) : TermViolates i j (.term i)
  | member {members : List (String × Json)} {k : Nat} {name : String} {j : Json}
      (h : members[k]? = some (name, j)) (unknown : name ≠ "by" ∧ name ≠ "dir") :
      TermViolates i (.object members) (.termMember i k name)
  | field {members : List (String × Json)}
      (h : ¬ ∃ s, Keyed.get? "by" members = some (.string s) ∧ isFieldReference s = true) :
      TermViolates i (.object members) (.termField i)
  | direction {members : List (String × Json)}
      (h : ¬ Allows members "dir" fun j =>
        ∃ token ∈ ["asc", "desc", "ASC", "DESC"], j = .string token) :
      TermViolates i (.object members) (.termDirection i)

/-- The places at which a member violates the grammar of filters, of which it is number `k`. -/
inductive FilterViolates (k : Nat) : String × Json → Place → Prop
  | key {name : String} {j : Json} (h : ¬ isFieldReference name = true) :
      FilterViolates k (name, j) (.filterKey k name)
  | operand {name : String} {j : Json} {indices : List Nat} {members : List (String × Json)}
      (h : j.at? indices = some (.object members)) (noId : ¬ Json.HasId members) :
      FilterViolates k (name, j) (.operand k name indices)

/-- The places at which a member violates the grammar of operators, of which it is number `k`. -/
inductive OperatorViolates (k : Nat) : String × Json → Place → Prop
  | key {name : String} {j : Json} (h : ¬ isFieldReference name = true) :
      OperatorViolates k (name, j) (.operatorKey k name)
  | tag {name : String} {j : Json}
      (h : ¬ ∃ tag, j = .string tag ∧ tag ∈ Operator.acceptedTags) :
      OperatorViolates k (name, j) (.operatorTag k name)

/-- The places at which a tree violates the grammar of the order. -/
inductive OrderViolates : Json → Place → Prop
  | order {j : Json} (h : ∀ terms, j ≠ .array terms) : OrderViolates j .order
  | term {terms : List Json} {p : Place} (h : Along TermViolates terms p) :
      OrderViolates (.array terms) p

/-- The places at which a tree violates the grammar of the filters. -/
inductive FiltersViolate : Json → Place → Prop
  | filters {j : Json} (notObject : ∀ ms, j ≠ .object ms) (notList : ∀ js, j ≠ .array js) :
      FiltersViolate j .filters
  | positional {js : List Json} (h : js ≠ []) : FiltersViolate (.array js) .positional
  | member {ms : List (String × Json)} {p : Place} (h : Along FilterViolates ms p) :
      FiltersViolate (.object ms) p

/-- The places at which a tree violates the grammar of the operators. -/
inductive OperatorsViolate : Json → Place → Prop
  | operators {j : Json} (notObject : ∀ ms, j ≠ .object ms) (notEmpty : j ≠ .array []) :
      OperatorsViolate j .operators
  | member {ms : List (String × Json)} {p : Place} (h : Along OperatorViolates ms p) :
      OperatorsViolate (.object ms) p

/-- The places at which the options that are known violate the grammar. -/
inductive OptionsViolate (members : List (String × Json)) : Place → Prop
  | items {j : Json} (given : Given members "items" j)
      (h : ¬ ∃ n, j.IsInteger n ∧ 0 ≤ n ∧ n < 2 ^ 32) : OptionsViolate members .items
  | page {j : Json} (given : Given members "page" j)
      (h : ¬ ∃ n, j.IsInteger n ∧ 1 ≤ n ∧ n < 2 ^ 32) : OptionsViolate members .page
  | order {j : Json} {p : Place} (given : Given members "order" j) (h : OrderViolates j p) :
      OptionsViolate members p
  | filters {j : Json} {p : Place} (given : Given members "filters" j) (h : FiltersViolate j p) :
      OptionsViolate members p
  | operators {j : Json} {p : Place} (given : Given members "operators" j)
      (h : OperatorsViolate j p) : OptionsViolate members p
  | grouping {j : Json} (given : Given members "group_by" j)
      (h : ¬ ∃ s, j = .string s ∧ (s = "" ∨ isFieldReference s = true)) :
      OptionsViolate members .grouping
  | skipNull {j : Json} (given : Given members "skip_null_values" j) (h : ¬ ∃ b, j = .bool b) :
      OptionsViolate members .skipNull

/-- The places at which a tree violates the grammar of raw options. -/
inductive Violates (r : Json) : Place → Prop
  | document (h : ¬ ∃ members, r.HasOptions members) : Violates r .document
  | unknown {members : List (String × Json)} {k : Nat} {name : String} {j : Json}
      (h : r.HasOptions members) (hk : members[k]? = some (name, j))
      (unknown : name ∉ optionNames) : Violates r (.unknown k name)
  | option {members : List (String × Json)} {p : Place} (h : r.HasOptions members)
      (violates : OptionsViolate members p) : Violates r p

end Criteria

end Shortlist
