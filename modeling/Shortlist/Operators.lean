import Shortlist.Error
import Shortlist.Keyed
import Shortlist.Operator

/-!
# Tables of operators

A table maps fields to tags, in the order of the fields.  A tag is stored as it is given and
read only when it is needed; a field that is not in the table has the operator `eq`.
-/

namespace Shortlist

/-- Tags by field, in ascending order of the fields. -/
structure Operators where
  entries : List (String × String)
  deriving DecidableEq

namespace Operators

/-- The table without entries. -/
def empty : Operators := ⟨[]⟩

/-- Maps a field to a tag, which is not read. -/
def insertTag (t : Operators) (field tag : String) : Operators :=
  ⟨Keyed.putSorted field tag t.entries⟩

/-- Maps a field to the tag of an operator. -/
def insert (t : Operators) (field : String) (op : Operator) : Operators :=
  t.insertTag field op.tag

/-- The table of a list of entries, later entries replacing earlier ones. -/
def ofList (entries : List (String × String)) : Operators :=
  entries.foldl (fun t e => t.insertTag e.1 e.2) empty

/-- The tag of a field. -/
def get? (t : Operators) (field : String) : Option String :=
  Keyed.get? field t.entries

/-- The number of fields in the table. -/
def size (t : Operators) : Nat := t.entries.length

/-- The operator of a field. -/
def operatorOf (t : Operators) (field : String) : Except Error Operator :=
  match t.get? field with
  | none => .ok .eq
  | some tag =>
    match Operator.ofTag? tag with
    | some op => .ok op
    | none => .error (.unknownOperator field tag)

theorem get?_insertTag (t : Operators) (field tag other : String) :
  (t.insertTag field tag).get? other = if field = other then some tag else t.get? other
  := Keyed.get?_putSorted field other tag t.entries

end Operators

end Shortlist
