import Shortlist.Error
import Shortlist.Text.Word

/-!
# Identifiers and fields

An identifier is an ASCII letter or underscore followed by at most 62 word characters.  A
field is a column, alone or after an alias and a dot, both identifiers.  `Field.parse`
accepts exactly the fields; a bare field is qualified with the root alias by `qualify`.
-/

namespace Shortlist

/-- The longest identifier. -/
def maxIdentifierLength : Nat := 63

/-- Whether the characters form an identifier. -/
def isIdentifierText : List Char → Bool
  | [] => false
  | c :: cs =>
    (c.isAlpha || c == '_') && cs.all Text.isWordChar && cs.length < maxIdentifierLength

/-- Whether the text is an identifier. -/
def isIdentifier (s : String) : Bool := isIdentifierText s.toList

/-- The text before the first dot and, if there is a dot, the text after it. -/
def splitDot (cs : List Char) : List Char × Option (List Char) :=
  match cs.dropWhile (· != '.') with
  | [] => (cs, none)
  | _ :: column => (cs.takeWhile (· != '.'), some column)

/-- Whether the text is an identifier, or two identifiers with a dot between them. -/
def isFieldReference (s : String) : Bool :=
  match splitDot s.toList with
  | (column, none) => isIdentifierText column
  | (name, some column) => isIdentifierText name && isIdentifierText column

/-- A column, alone or after an alias and a dot. -/
structure Field where
  text : String
  valid : isFieldReference text = true
  deriving DecidableEq

namespace Field

/-- The field a text spells, or what is wrong with the text. -/
def read (s : String) : Except FieldFault Field :=
  if s.isEmpty then .error .empty
  else if h : isFieldReference s = true then .ok ⟨s, h⟩
  else .error .malformed

/-- The field a text spells. -/
def parse (s : String) : Except Error Field := (read s).mapError (.field s)

/-- Whether the field names its alias. -/
def isQualified (f : Field) : Bool := f.text.toList.contains '.'

/-- The alias of a qualified field. -/
def qualifier (f : Field) : Option String :=
  match splitDot f.text.toList with
  | (_, none) => none
  | (name, some _) => some (String.ofList name)

/-- The column. -/
def column (f : Field) : String :=
  match splitDot f.text.toList with
  | (column, none) => String.ofList column
  | (_, some column) => String.ofList column

/-- The name of the parameter that stands for the field, with the dot as an underscore. -/
def parameter (f : Field) : String :=
  String.ofList (f.text.toList.map fun c => if c = '.' then '_' else c)

/-- Whether the text of a field does not come after the text of another. -/
def le (f g : Field) : Bool := !decide (g.text < f.text)

/-- The list without the fields equal to the one before them. -/
def dropRepeated : List Field → List Field
  | f :: g :: fs => if f = g then dropRepeated (g :: fs) else f :: dropRepeated (g :: fs)
  | fs => fs

/-- The fields in ascending order, each once. -/
def sorted (fs : List Field) : List Field := dropRepeated (fs.mergeSort le)

end Field

/-- Qualifies a column with the alias, unless it names one already.  An empty alias counts as
none. -/
def qualifyText (field : String) (rootAlias? : Option String) : Except Error String :=
  if field.toList.contains '.' then .ok field
  else match rootAlias? with
    | none => .error .missingAlias
    | some name => if name.isEmpty then .error .missingAlias else .ok (name ++ "." ++ field)

/-- The qualified text of a field on a query with the given root alias. -/
def Field.qualify (f : Field) (rootAlias? : Option String) : Except Error String :=
  qualifyText f.text rootAlias?

end Shortlist
