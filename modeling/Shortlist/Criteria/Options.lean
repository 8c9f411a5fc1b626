import Shortlist.Criteria.Basic
import Shortlist.Text.Blank

/-!
# Criteria from raw options

`Criteria.ofOptions` reads criteria from a tree of raw options and refuses the first option
that is at fault: an unknown option, then the options in the order of `optionNames`, and
within an option its parts in their order.  A null option counts as absent.
-/

namespace Shortlist.Criteria

/-- The names of the options. -/
def optionNames : List String :=
  ["items", "page", "order", "filters", "operators", "group_by", "skip_null_values"]

/-- The member of a name, unless it is null. -/
def option? (members : List (String × Json)) (name : String) : Option Json :=
  (Keyed.get? name members).filter (!·.isNull)

/-- An option of another shape than it should have. -/
def mistyped {α : Type} (path : String) (shape : Shape) (got : Json) : Except Error α :=
  .error (.option path (.expected shape got.kind))

/-- Reads an integer: a whole number, or its decimal text with blanks around it. -/
def readInteger (path : String) : Json → Except Error Int64
  | .number n =>
    match n.toInt64? with
    | some i => .ok i
    | none => .error (.option path (.notInteger n.text))
  | .string s =>
    match Number.readInt64? (Text.trim s.toList) with
    | some i => .ok i
    | none => .error (.option path (.notInteger ("\"" ++ s ++ "\"")))
  | j => .error (.option path (.notInteger j.kind))

/-- A number that is not negative as one of 32 bits. -/
def toUInt32 (path : String) (n : Int64) : Except Error UInt32 :=
  if n.toInt < UInt32.size then .ok (UInt32.ofNat n.toInt.toNat)
  else .error (.option path (.tooLarge n.toInt))

/-- Reads the number of items on a page, zero for no limit. -/
def readItems (j : Json) : Except Error UInt32 := do
  let n ← readInteger "items" j
  if n < 0 then .error (.option "items" .negative) else toUInt32 "items" n

/-- Reads the number of the page, counted from one. -/
def readPage (j : Json) : Except Error UInt32 := do
  let n ← readInteger "page" j
  if n ≤ 0 then .error (.option "page" .notPositive) else toUInt32 "page" n

/-- Reads a field found at a path. -/
def readField (path : String) (s : String) : Except Error Field :=
  (Field.read s).mapError fun fault => .option path (.badField fault)

/-- Reads the field of an order term. -/
def readOrderField (path : String) : Option Json → Except Error Field
  | some (.string s) => readField path s
  | some .null => .error (.option path .missing)
  | none => .error (.option path .missing)
  | some j => mistyped path .string j

/-- Reads the direction of an order term. -/
def readDirection (path : String) : Option Json → Except Error Direction
  | some (.string s) =>
    match Direction.ofToken? s with
    | some d => .ok d
    | none => .error (.option path (.badDirection s))
  | some .null => .ok .standard
  | none => .ok .standard
  | some j => mistyped path .string j

/-- Reads an order term found at a path. -/
def readOrderTerm (path : String) : Json → Except Error OrderTerm
  | .object members =>
    match members.find? fun m => m.1 != "by" && m.1 != "dir" with
    | some (name, _) => .error (.option (path ++ "." ++ name) .unknownMember)
    | none => do
      let field ← readOrderField (path ++ ".by") (Keyed.get? "by" members)
      let direction ← readDirection (path ++ ".dir") (Keyed.get? "dir" members)
      return ⟨field, direction⟩
  | j => mistyped path .orderTerm j

/-- Reads order terms, the first of which has index `i`. -/
def readOrderTerms (i : Nat) : List Json → Except Error (List OrderTerm)
  | [] => .ok []
  | j :: js => do
    let term ← readOrderTerm ("order[" ++ Number.natText i ++ "]") j
    let terms ← readOrderTerms (i + 1) js
    return term :: terms

/-- Reads the order. -/
def readOrder : Json → Except Error (List OrderTerm)
  | .array items => readOrderTerms 0 items
  | j => mistyped "order" .list j

/-- Reads the members of the filters. -/
def readFilterMembers : List (String × Json) → Except Error (List Filter)
  | [] => .ok []
  | (name, j) :: ms => do
    let field ← Field.parse name
    let operand ← Operand.ofJson ("filters." ++ name) j
    let filters ← readFilterMembers ms
    return ⟨field, operand⟩ :: filters

/-- Reads the filters.  An empty list stands for no filters. -/
def readFilters : Json → Except Error (List Filter)
  | .object members => readFilterMembers members
  | .array [] => .ok []
  | .array _ => .error (.field "0" .positional)
  | j => mistyped "filters" .object j

/-- Reads the operator found at a path. -/
def readOperator (path : String) : Json → Except Error Operator
  | .string tag =>
    match Operator.ofTag? tag with
    | some op => .ok op
    | none => .error (.option path (.badOperator tag))
  | j => mistyped path .operatorTag j

/-- Reads the members of the operators into a table. -/
def readOperatorMembers (t : Operators) : List (String × Json) → Except Error Operators
  | [] => .ok t
  | (name, j) :: ms => do
    let field ← readField ("operators." ++ name) name
    let op ← readOperator ("operators." ++ name) j
    readOperatorMembers (t.insert field.text op) ms

/-- Reads the operators.  An empty list stands for no operators. -/
def readOperators : Json → Except Error Operators
  | .object members => readOperatorMembers .empty members
  | .array [] => .ok .empty
  | j => mistyped "operators" .object j

/-- Reads the grouping.  An empty text stands for no grouping. -/
def readGrouping : Json → Except Error (Option Field)
  | .string s => if s.isEmpty then .ok none else (readField "group_by" s).map some
  | j => mistyped "group_by" .string j

/-- Reads whether filters with a null operand are skipped. -/
def readSkipNull : Json → Except Error Bool
  | .bool b => .ok b
  | j => mistyped "skip_null_values" .boolean j

/-- Reads an option that is there, and takes the standard one otherwise. -/
def orStandard {α : Type} (standard : α) (read : Json → Except Error α) :
    Option Json → Except Error α
  | none => .ok standard
  | some j => read j

/-- Reads criteria from the members of an option object. -/
def ofMembers (members : List (String × Json)) : Except Error Criteria :=
  match members.find? (!optionNames.contains ·.1) with
  | some (name, _) => .error (.option name (.unknownOption optionNames))
  | none => do
    let items ← orStandard standard.items readItems (option? members "items")
    let page ← orStandard standard.page readPage (option? members "page")
    let order ← orStandard standard.order readOrder (option? members "order")
    let filters ← orStandard standard.filters readFilters (option? members "filters")
    let operators ← orStandard standard.operators readOperators (option? members "operators")
    let grouping? ← orStandard standard.grouping? readGrouping (option? members "group_by")
    let skipNull ← orStandard standard.skipNull readSkipNull
      (option? members "skip_null_values")
    return { items, page, order, grouping?, filters, operators, skipNull }

/-- Reads criteria from a tree of raw options; null stands for no options. -/
def ofOptions : Json → Except Error Criteria
  | .null => ofMembers []
  | .object members => ofMembers members
  | j => mistyped "$" .object j

end Shortlist.Criteria
