import Shortlist.Number.Whole

/-!
# Errors

An error says what is at fault and why; `Error.message` is its wording.  A fault of an option
comes with the path of the option, `$` for the whole document.
-/

namespace Shortlist

/-- The shape an option should have had. -/
inductive Shape where
  | object
  | list
  | orderTerm
  | string
  | boolean
  | operatorTag
  deriving DecidableEq

/-- Why a text is no field of a filter. -/
inductive FieldFault where
  | empty
  | malformed
  | positional
  | claimed (parameter owner : String)
  | bound (parameter : String)
  deriving DecidableEq

/-- Why an option is refused.  `got` describes the value that was given. -/
inductive OptionFault where
  | expected (shape : Shape) (got : String)
  | notInteger (got : String)
  | unknownOption (known : List String)
  | unknownMember
  | negative
  | notPositive
  | tooLarge (n : Int)
  | missing
  | badDirection (token : String)
  | badOperator (tag : String)
  | noId
  | badField (fault : FieldFault)
  | rejectedField (field : String) (fault : FieldFault)
  | badTable (table : String)
  | badAlias (name : String)
  | badJson
  | badToml
  deriving DecidableEq

/-- Why an operator cannot take the operand of a filter. -/
inductive OperandFault where
  | noText
  | nestedList
  | nullBound
  | notTwoBounds
  | notAList
  | refused (reason : String)
  deriving DecidableEq

/-- Why a join is refused. -/
inductive JoinFault where
  | badTarget (table : String)
  | badAlias (name : String)
  | unsafeCondition (condition : String)
  deriving DecidableEq

/-- What stops the reading of criteria or their compilation. -/
inductive Error where
  | option (path : String) (fault : OptionFault)
  | field (field : String) (fault : FieldFault)
  | unknownOperator (field tag : String)
  | operand (field : String) (fault : OperandFault)
  | missingAlias
  | unbound (parameter : String)
  | join (fault : JoinFault)
  deriving DecidableEq

/-- The shape with its article. -/
def Shape.text : Shape → String
  | .object => "an object"
  | .list => "a list"
  | .orderTerm => "an object with `by` and `dir`"
  | .string => "a string"
  | .boolean => "a boolean"
  | .operatorTag => "an operator tag"

/-- The wording of a fault of a field. -/
def FieldFault.text : FieldFault → String
  | .empty => "field name cannot be empty"
  | .malformed =>
    "expected `column` or `alias.column` made of ASCII letters, digits and underscores"
  | .positional => "filter keys must be field names, got a positional list"
  | .claimed parameter owner =>
    "parameter `" ++ parameter ++ "` is already bound for filter `" ++ owner ++ "`"
  | .bound parameter => "parameter `" ++ parameter ++ "` is already bound on the query"

/-- The wording of a refused field. -/
def fieldMessage (field : String) (fault : FieldFault) : String :=
  "invalid filter field `" ++ field ++ "`: " ++ fault.text

/-- The wording of a fault of an option. -/
def OptionFault.text : OptionFault → String
  | .expected shape got => "expected " ++ shape.text ++ ", got " ++ got
  | .notInteger got => "expected an integer, got " ++ got
  | .unknownOption known =>
    "unrecognized option, expected one of: " ++ ", ".intercalate known
  | .unknownMember => "unrecognized option, expected `by` or `dir`"
  | .negative => "must be 0 (unlimited) or positive"
  | .notPositive => "must be positive"
  | .tooLarge n => Number.intText n ++ " is too large"
  | .missing => "is required"
  | .badDirection token => "invalid order direction \"" ++ token ++ "\""
  | .badOperator tag => "invalid operator \"" ++ tag ++ "\""
  | .noId => "object values must carry a scalar `id` member"
  | .badField fault => fault.text
  | .rejectedField field fault => fieldMessage field fault
  | .badTable table => "invalid table name `" ++ table ++ "`"
  | .badAlias name => "invalid alias `" ++ name ++ "`"
  | .badJson => "invalid JSON"
  | .badToml => "invalid TOML"

/-- The wording of a fault of an operand. -/
def OperandFault.text : OperandFault → String
  | .noText => "pattern operators need a string, number or boolean"
  | .nestedList => "list members must not be lists"
  | .nullBound => "between bounds must not be null"
  | .notTwoBounds => "between needs exactly two scalar bounds"
  | .notAList => "between needs a two-element list"
  | .refused reason => reason

/-- The wording of a fault of a join. -/
def JoinFault.text : JoinFault → String
  | .badTarget table => "invalid join target `" ++ table ++ "`"
  | .badAlias name => "invalid join alias `" ++ name ++ "`"
  | .unsafeCondition condition => "unsafe join condition `" ++ condition ++ "`"

/-- The wording of an error. -/
def Error.message : Error → String
  | .option path fault => "invalid configuration at `" ++ path ++ "`: " ++ fault.text
  | .field name fault => fieldMessage name fault
  | .unknownOperator name tag => "unknown operator `" ++ tag ++ "` for field `" ++ name ++ "`"
  | .operand name fault => "invalid value for filter `" ++ name ++ "`: " ++ fault.text
  | .missingAlias => "query builder has no root alias"
  | .unbound parameter => "parameter `" ++ parameter ++ "` is referenced but never bound"
  | .join fault => "invalid join: " ++ fault.text

/-! ### Results -/

/-- A result goes through two steps when it goes through the first and what comes out goes
through the second. -/
theorem bind_eq_ok_iff
    {α β ε : Type} (x : Except ε α) (next : α → Except ε β) (b : β) :
  x >>= next = .ok b ↔ ∃ a, x = .ok a ∧ next a = .ok b
  := by cases x <;> simp [bind, Except.bind]

/-- An error of two steps is one of the first, or one of the second after the first. -/
theorem bind_eq_error_iff
    {α β ε : Type} (x : Except ε α) (next : α → Except ε β) (e : ε) :
  x >>= next = .error e ↔ x = .error e ∨ ∃ a, x = .ok a ∧ next a = .error e
  := by cases x <;> simp [bind, Except.bind]

/-- A result of which something is known is no error. -/
theorem exists_eq_ok_of_map_toOption
    {α β ε : Type} {x : Except ε α} {f : α → β} {b : β} (h : x.toOption.map f = some b) :
  ∃ a, x = .ok a ∧ f a = b
  := by
  cases x with
  | error e => cases h
  | ok a => exact ⟨a, rfl, Option.some.inj h⟩

/-- Wording an error anew does not change whether there is one. -/
theorem mapError_eq_ok_iff
    {α ε δ : Type} (f : ε → δ) (x : Except ε α) (a : α) :
  x.mapError f = .ok a ↔ x = .ok a
  := by
  cases x with
  | error e =>
    constructor
    · rintro ⟨⟩
    · rintro ⟨⟩
  | ok b =>
    constructor
    · rintro ⟨⟩
      rfl
    · rintro ⟨⟩
      rfl

theorem mapError_eq_error_iff
    {α ε δ : Type} (f : ε → δ) (x : Except ε α) (e : δ) :
  x.mapError f = .error e ↔ ∃ e', x = .error e' ∧ e = f e'
  := by
  cases x with
  | error e' =>
    constructor
    · rintro ⟨⟩
      exact ⟨e', rfl, rfl⟩
    · rintro ⟨_, ⟨⟩, rfl⟩
      rfl
  | ok b =>
    constructor
    · rintro ⟨⟩
    · rintro ⟨_, ⟨⟩, -⟩

end Shortlist
