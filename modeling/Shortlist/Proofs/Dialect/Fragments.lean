import Shortlist.Proofs.Query.Rendering

/-!
# Fragments

A statement is a sequence of fragments: texts, which all dialects spell alike, and truth values and
placeholders, which each spells in its own way.  Only the limit, which some dialects put before an
offset that stands alone, is not a matter of spelling.
-/

namespace Shortlist

/-- A part of a statement that is written at once. -/
inductive Fragment where
  | text (s : String)
  | truth (b : Bool)
  | placeholder (k : Nat)

/-- A fragment with given spellings of the truth values and a mark before the numbers of
placeholders. -/
def Fragment.spelled (yes no mark : String) : Fragment → String
  | .text s => s
  | .truth b => if b then yes else no
  | .placeholder k => mark ++ Number.natText k

namespace Dialect

variable (d : Dialect)

/-- The spelling of a fragment. -/
def spell : Fragment → String
  | .text s => s
  | .truth b => d.truth b
  | .placeholder k => d.placeholder k

/-- The truth values and the mark before numbers are all that a dialect decides on. -/
theorem spell_eq_spelled {yes no mark : String} (truth : ∀ b, d.truth b = if b then yes else no)
    (placeholder : ∀ k, d.placeholder k = mark ++ Number.natText k) :
  d.spell = Fragment.spelled yes no mark
  := by
  funext f
  cases f with
  | text s => rfl
  | truth b => apply truth
  | placeholder k => apply placeholder

theorem spell_postgres :
  postgres.spell = Fragment.spelled "TRUE" "FALSE" "$"
  := postgres.spell_eq_spelled (by decide) fun _ => rfl

theorem spell_sqlite :
  sqlite.spell = Fragment.spelled "1" "0" "?"
  := sqlite.spell_eq_spelled (by decide) fun _ => rfl

/-- The text of some fragments. -/
def write (fs : List Fragment) : String :=
  String.join (fs.map d.spell)

theorem write_nil :
  d.write [] = ""
  := String.join_nil

theorem write_cons (f : Fragment) (fs : List Fragment) :
  d.write (f :: fs) = d.spell f ++ d.write fs
  := String.join_cons

theorem write_singleton (f : Fragment) :
  d.write [f] = d.spell f
  := by rw [write_cons, write_nil, String.append_empty]

theorem write_append (fs gs : List Fragment) :
  d.write (fs ++ gs) = d.write fs ++ d.write gs
  := by rw [write, List.map_append, String.join_append, write, write]

/-- Fragments are written group by group. -/
theorem write_flatMap {α : Type} (g : α → List Fragment) (as : List α) :
  d.write (as.flatMap g) = String.join (as.map fun a => d.write (g a))
  := by
  induction as with
  | nil => rfl
  | cons a as ih => rw [List.flatMap_cons, write_append, ih, List.map_cons, String.join_cons]

/-- A separator between groups of fragments is written between the written groups. -/
theorem write_intercalate (separator : String) (groups : List (List Fragment)) :
  d.write ([.text separator].intercalate groups) = separator.intercalate (groups.map d.write)
  := by
  induction groups with
  | nil => rfl
  | cons group groups ih =>
    cases groups with
    | nil => simp [List.intercalate]
    | cons next groups =>
      rw [List.intercalate_cons_cons, write_append, write_append, ih, write_singleton,
        List.map_cons, List.map_cons, List.map_cons, String.intercalate_cons_cons]
      rfl

end Dialect

/-! ### Values -/

mutual

/-- The fragments of a value that is written into a statement. -/
def Value.fragments : Value → List Fragment
  | .null => [.text "NULL"]
  | .bool b => [.truth b]
  | .int n => [.text (Number.intText n.toInt)]
  | .float x => [.text (Dialect.float x)]
  | .string s => [.text (Text.quote s)]
  | .array items =>
    .text "(" :: ([.text ", "].intercalate (Value.itemFragments items) ++ [.text ")"])

/-- The fragments of the values of an array. -/
def Value.itemFragments : List Value → List (List Fragment)
  | [] => []
  | v :: vs => v.fragments :: Value.itemFragments vs

end

mutual

/-- The fragments of a value are written as its literal. -/
theorem Dialect.write_fragments (d : Dialect) (v : Value) :
  d.write v.fragments = d.literal v
  := by
  cases v with
  | array items =>
    rw [Value.fragments, write_cons, write_append, write_intercalate, write_singleton,
      d.map_write_itemFragments items, literal, ← String.append_assoc]
    rfl
  | _ => exact d.write_singleton _

/-- The fragments of the items of an array are written as the literals of the items. -/
theorem Dialect.map_write_itemFragments (d : Dialect) (vs : List Value) :
  (Value.itemFragments vs).map d.write = d.literals vs
  := by
  cases vs with
  | nil => rfl
  | cons v vs =>
    rw [Value.itemFragments, List.map_cons, d.write_fragments v, d.map_write_itemFragments vs,
      literals]

end

/-! ### Statements -/

/-- The fragments of a numbered piece. -/
def Piece.fragments : Piece Nat → List Fragment
  | .text s => [.text s]
  | .literal v => v.fragments
  | .placeholder k => [.placeholder k]

/-- The fragments of a piece are written as the piece is spelled. -/
theorem Piece.write_fragments (d : Dialect) (p : Piece Nat) :
  d.write p.fragments = p.sql d
  := by
  cases p with
  | literal v => apply Dialect.write_fragments
  | _ => apply Dialect.write_singleton

namespace Query

/-- The fragments of the statement of a query. -/
def fragments (q : Query) : List Fragment :=
  q.pieces.flatMap fun p => (p.map (numberAmong q.named)).fragments

/-- A statement is the fragments of its query, written in the dialect of the query. -/
theorem sql_numbered (q : Query) :
  q.numbered.sql = q.dialect.write q.fragments
  := by
  rw [fragments, Dialect.write_flatMap, numbered]
  simp only [Piece.write_fragments]

example :
  let q : Query := ⟨.postgres, "posts", none, [], [],
    [.isIn "open" false [.bool true, .string "TRUE"], .compare "id" .eq "id"], [("id", .int 2)],
    [], none, none, none⟩
  Dialect.postgres.write q.fragments
      = "SELECT * FROM posts WHERE open IN (TRUE, 'TRUE') AND id = $1"
    ∧ Dialect.sqlite.write q.fragments
      = "SELECT * FROM posts WHERE open IN (1, 'TRUE') AND id = ?1"
  := ⟨rfl, rfl⟩

end Query

end Shortlist
