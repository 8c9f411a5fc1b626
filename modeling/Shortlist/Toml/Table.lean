import Shortlist.Json.Basic

/-!
# Tables of a TOML document

A document is put together from headers and assignments.  A table remembers how it came
about: from its own header, as a step on the path of another header, or from a dotted key.
A table has at most one header, and a dotted key never passes through a table with a header.
It may pass through a step on the path of a header and the open table of an array, but the
table it adds to is one made by dotted keys.  Keys are kept in ascending order.
-/

namespace Shortlist.Toml

/-- How a table came about. -/
inductive Origin where
  | header
  | path
  | dotted
  deriving DecidableEq

/-- What a key stands for: a finished value, a table, or an array of tables of which the last
one is still open. -/
inductive Entry where
  | value (j : Json)
  | table (origin : Origin) (members : List (String × Entry))
  | tables (earlier : List (List (String × Entry))) (last : List (String × Entry))

/-- The members of a table in ascending order of their keys. -/
abbrev Members := List (String × Entry)

mutual

/-- The tree of an entry. -/
def Entry.toJson : Entry → Json
  | .value j => j
  | .table _ members => .object (membersToJson members)
  | .tables earlier last => .array (tablesToJson earlier ++ [.object (membersToJson last)])

/-- The trees of the members of a table. -/
def membersToJson : List (String × Entry) → List (String × Json)
  | [] => []
  | (key, e) :: es => (key, e.toJson) :: membersToJson es

/-- The trees of several tables. -/
def tablesToJson : List (List (String × Entry)) → List Json
  | [] => []
  | t :: ts => .object (membersToJson t) :: tablesToJson ts

end

namespace Members

/-- Gives a value to a key of the table that a dotted path leads to. -/
def assign (key : String) (j : Json) : List String → Members → Option Members
  | [], t =>
    match Keyed.get? key t with
    | some _ => none
    | none => some (Keyed.putSorted key (.value j) t)
  | k :: ks, t =>
    match Keyed.get? k t with
    | none => (assign key j ks []).map fun sub => Keyed.putSorted k (.table .dotted sub) t
    | some (.table .dotted sub) =>
      (assign key j ks sub).map fun sub => Keyed.putSorted k (.table .dotted sub) t
    | some (.table .path sub) =>
      if ks.isEmpty then none
      else (assign key j ks sub).map fun sub => Keyed.putSorted k (.table .path sub) t
    | some (.table .header _) => none
    | some (.tables earlier last) =>
      if ks.isEmpty then none
      else (assign key j ks last).map fun last => Keyed.putSorted k (.tables earlier last) t
    | some (.value _) => none

/-- Changes the entry that the path of a header leads to, making the tables on the way. -/
def atHeader (change : Option Entry → Option Entry) : List String → Members → Option Members
  | [], _ => none
  | [k], t => (change (Keyed.get? k t)).map fun e => Keyed.putSorted k e t
  | k :: ks, t =>
    match Keyed.get? k t with
    | none =>
      (atHeader change ks []).map fun sub => Keyed.putSorted k (.table .path sub) t
    | some (.table origin sub) =>
      (atHeader change ks sub).map fun sub => Keyed.putSorted k (.table origin sub) t
    | some (.tables earlier last) =>
      (atHeader change ks last).map fun last => Keyed.putSorted k (.tables earlier last) t
    | some (.value _) => none

/-- Opens the table of a header. -/
def openTable (path : List String) (t : Members) : Option Members :=
  atHeader (fun
    | none => some (.table .header [])
    | some (.table .path sub) => some (.table .header sub)
    | some _ => none) path t

/-- Opens the next table of an array of tables. -/
def openElement (path : List String) (t : Members) : Option Members :=
  atHeader (fun
    | none => some (.tables [] [])
    | some (.tables earlier last) => some (.tables (earlier ++ [last]) [])
    | some _ => none) path t

/-- Gives a value to a key under the header that is open. -/
def assignUnder (header : List String) (path : List String) (key : String) (j : Json)
    (t : Members) : Option Members :=
  if header.isEmpty then assign key j path t
  else atHeader (fun
    | some (.table origin sub) => (assign key j path sub).map (.table origin)
    | some (.tables earlier last) => (assign key j path last).map (.tables earlier)
    | _ => none) header t

end Members

end Shortlist.Toml
