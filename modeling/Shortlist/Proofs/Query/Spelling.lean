import Shortlist.Proofs.Dialect.Literal
import Shortlist.Proofs.Query.Rendering
import Shortlist.Proofs.Text.Plain

/-!
# Spelled statements

A statement is guarded when the names in it are plain and its conditions are guarded: the
keywords between them are harmless, and a number is all that stands for a parameter.
-/

namespace Shortlist

open Text

/-- The characters of pieces in a dialect, under numbers for their names. -/
def spelled (d : Dialect) (number : String → Nat) (ps : List (Piece String)) : List Char :=
  ps.flatMap fun p => ((p.map number).sql d).toList

section Spelled

variable (d : Dialect) (number : String → Nat)

theorem spelled_append (ps qs : List (Piece String)) :
  spelled d number (ps ++ qs) = spelled d number ps ++ spelled d number qs
  := List.flatMap_append

theorem spelled_text (s : String) (ps : List (Piece String)) :
  spelled d number (.text s :: ps) = s.toList ++ spelled d number ps
  := rfl

/-- A separator between groups of pieces is spelled between the spelled groups. -/
theorem spelled_separated (separator : String) (groups : List (List (Piece String))) :
  spelled d number (separated separator groups)
    = separator.toList.intercalate (groups.map (spelled d number))
  := by
  induction groups with
  | nil => rfl
  | cons group groups ih =>
    cases groups with
    | nil => simp [separated, List.intercalate]
    | cons next groups =>
      rw [separated, List.intercalate_cons_cons, spelled_append, spelled_append, ← separated, ih,
        List.map_cons, List.map_cons, List.map_cons, List.intercalate_cons_cons, spelled_text]
      simp [spelled]

/-- Pieces that are literals are spelled as the literals of their values. -/
theorem map_spelled_literals (vs : List Value) :
  (vs.map fun v => [Piece.literal v]).map (spelled d number)
    = (vs.map d.literal).map String.toList
  := by simp [spelled, Piece.map, Piece.sql]

/-- A plain text before guarded pieces keeps them guarded. -/
theorem guarded_spelled_text
    {s : String} {ps : List (Piece String)} {ss : List String} (hs : isPlain s = true)
    (hps : Guarded (spelled d number ps) ss) :
  Guarded (spelled d number (.text s :: ps)) ss
  := (Guarded.of_isPlain hs).append hps

/-- A placeholder before guarded pieces keeps them guarded. -/
theorem guarded_spelled_placeholder
    (name : String) {ps : List (Piece String)} {ss : List String}
    (hps : Guarded (spelled d number ps) ss) :
  Guarded (spelled d number (.placeholder name :: ps)) ss
  := (d.guarded_placeholder (number name)).append hps

/-- A list of values in parentheses is guarded with the strings of the values. -/
theorem guarded_spelled_literals
    {s : String} (hs : isPlain s = true) (hne : s.toList ≠ []) (vs : List Value) :
  Guarded
    (spelled d number
      (.text s :: (separated ", " (vs.map fun v => [.literal v]) ++ [.text ")"])))
    (vs.flatMap Value.strings)
  := by
  rw [spelled_text, spelled_append, spelled_separated, map_spelled_literals,
    ← List.append_nil (List.flatMap _ _)]
  have hliterals := GuardedAfter.intercalate (d.guardedAfter_literals vs)
  apply GuardedAfter.guarded_append _ hs hne
  apply hliterals.append
  apply guarded_spelled_text _ _ (by decide)
  apply Guarded.nil

end Spelled

/-! ### Predicates -/

namespace Predicate

variable (d : Dialect) (number : String → Nat) {column : String}

/-- A comparison holds no strings, as its operand is a parameter. -/
theorem guarded_compare (hcolumn : isPlain column = true) (op : Operator) (name : String) :
  Guarded (spelled d number (Predicate.compare column op name).pieces) []
  := by
  have htext : isPlain (column ++ " " ++ op.sql ++ " ") = true := by
    rw [isPlain_append, isPlain_append, isPlain_append, hcolumn]
    cases op <;> decide
  apply guarded_spelled_text _ _ htext
  apply guarded_spelled_placeholder
  apply Guarded.nil

/-- A test for null holds no strings. -/
theorem guarded_null (hcolumn : isPlain column = true) (negated : Bool) :
  Guarded (spelled d number (Predicate.null column negated).pieces) []
  := by
  have htext : isPlain (column ++ if negated then " IS NOT NULL" else " IS NULL") = true := by
    rw [isPlain_append, hcolumn]
    cases negated <;> decide
  apply guarded_spelled_text _ _ htext
  apply Guarded.nil

/-- The quoted text of a pattern stands after a space. -/
theorem guarded_like (hcolumn : isPlain column = true) (negated : Bool) (text : String) :
  Guarded (spelled d number (Predicate.like column negated (quote text)).pieces) [text]
  := by
  have htext : isPlain (column ++ if negated then " NOT LIKE " else " LIKE ") = true := by
    rw [isPlain_append, hcolumn]
    cases negated <;> decide
  have hne : (column ++ if negated then " NOT LIKE " else " LIKE ").toList ≠ [] := by
    rw [String.toList_append]
    cases negated <;> simp
  rw [pieces, spelled_text, String.toList_append, ← List.append_nil [text]]
  apply ((GuardedAfter.quote text).guarded_append htext hne).append
  apply Guarded.nil

/-- A membership test holds the strings of its values and no others. -/
theorem guarded_isIn (hcolumn : isPlain column = true) (negated : Bool) (values : List Value) :
  Guarded (spelled d number (Predicate.isIn column negated values).pieces)
    (values.flatMap Value.strings)
  := by
  cases values with
  | nil =>
    have htext : isPlain (if negated then "1=1" else "1=0") = true := by
      cases negated <;> decide
    apply guarded_spelled_text _ _ htext
    apply Guarded.nil
  | cons v vs =>
    have htext : isPlain (column ++ if negated then " NOT IN (" else " IN (") = true := by
      rw [isPlain_append, hcolumn]
      cases negated <;> decide
    apply guarded_spelled_literals _ _ htext
    rw [String.toList_append]
    cases negated <;> simp

/-- A range holds no strings, as its bounds are parameters. -/
theorem guarded_between (hcolumn : isPlain column = true) (low high : String) :
  Guarded (spelled d number (Predicate.between column low high).pieces) []
  := by
  have htext : isPlain (column ++ " BETWEEN ") = true := by
    rw [isPlain_append, hcolumn]
    decide
  apply guarded_spelled_text _ _ htext
  apply guarded_spelled_placeholder
  apply guarded_spelled_text _ _ (by decide)
  apply guarded_spelled_placeholder
  apply Guarded.nil

end Predicate

/-! ### Queries -/

namespace Query

/-- Everything that a query writes into its statement as it is may stand there: the names are
plain, there is no join, and the conditions are guarded with the given strings. -/
structure IsGuarded (q : Query) (number : String → Nat) (strings : List (List String)) :
    Prop where
  table : isPlain q.table = true
  rootAlias : ∀ name, q.rootAlias? = some name → isPlain name = true
  selects : ∀ s ∈ q.selects, isPlain s = true
  joins : q.joins = []
  conditions : List.Forall₂ Guarded
    (q.predicates.map fun p => spelled q.dialect number p.pieces) strings
  order : ∀ term ∈ q.order, isPlain term.1 = true
  grouping : ∀ column, q.grouping? = some column → isPlain column = true

/-- Without joins a statement is plain up to its conditions when the names in it are. -/
theorem isPlain_headText_of_joins {q : Query} (joins : q.joins = [])
    (table : isPlain q.table = true)
    (rootAlias : ∀ name, q.rootAlias? = some name → isPlain name = true)
    (selects : ∀ s ∈ q.selects, isPlain s = true) :
  isPlain q.headText = true
  := by
  have hselects :
      isPlain (if q.selects.isEmpty then "*" else ", ".intercalate q.selects) = true := by
    split
    · decide
    · apply isPlain_intercalate (by decide) selects
  cases halias : q.rootAlias? with
  | none =>
    simp only [headText, isPlain_append, hselects, table, joins, halias]
    decide
  | some name =>
    simp only [headText, isPlain_append, hselects, table, joins, halias, rootAlias name halias]
    decide

namespace IsGuarded

variable {q : Query} {number : String → Nat} {strings : List (List String)}

/-- The head of a guarded query is plain. -/
theorem isPlain_headText (h : q.IsGuarded number strings) :
  isPlain q.headText = true
  := isPlain_headText_of_joins h.joins h.table h.rootAlias h.selects

/-- The grouping of a guarded query is plain. -/
theorem isPlain_groupText (h : q.IsGuarded number strings) :
  isPlain q.groupText = true
  := by
  rw [groupText]
  split
  · decide
  next column hcolumn =>
    rw [isPlain_append, h.grouping column hcolumn]
    decide

/-- The order terms of a guarded query are plain. -/
theorem isPlain_orderText (h : q.IsGuarded number strings) :
  isPlain q.orderText = true
  := by
  rw [orderText]
  split
  · decide
  · rw [isPlain_append, Bool.and_eq_true]
    constructor
    · decide
    · apply isPlain_intercalate (by decide)
      intro s hs
      obtain ⟨⟨column, direction⟩, hterm, rfl⟩ := List.mem_map.mp hs
      rw [isPlain_append, isPlain_append, h.order _ hterm]
      cases direction <;> decide

/-- The conditions of a guarded query hold the strings of its predicates, in order. -/
theorem guarded_conditionPieces (h : q.IsGuarded number strings) :
  Guarded (spelled q.dialect number q.conditionPieces) strings.flatten
  := by
  have hconditions := h.conditions
  rw [conditionPieces]
  cases hps : q.predicates with
  | nil =>
    rw [hps] at hconditions
    cases hconditions
    apply Guarded.nil
  | cons p ps =>
    rw [List.isEmpty_cons, if_neg Bool.false_ne_true]
    apply guarded_spelled_text _ _ (by decide)
    rw [spelled_separated, List.map_map, ← hps]
    apply Guarded.intercalate (by decide) hconditions

end IsGuarded

/-- The limit holds no strings; where it is negative, a digit comes after the minus sign. -/
theorem guarded_limitText (q : Query) :
  Guarded q.limitText.toList []
  := by
  rw [limitText]
  split
  · rw [String.toList_append]
    apply (Guarded.of_harmless (by decide)).append (Number.guarded_natText _)
  next unlimited _ _ hunlimited =>
    cases hd : q.dialect with
    | postgres =>
      rw [hd] at hunlimited
      cases hunlimited
    | sqlite =>
      rw [hd] at hunlimited
      cases hunlimited
      rw [String.toList_append]
      apply (Guarded.of_harmless (by decide)).append
      apply Guarded.minus (by decide) .nil
  · apply Guarded.nil

/-- The offset holds no strings. -/
theorem guarded_offsetText (q : Query) :
  Guarded q.offsetText.toList []
  := by
  rw [offsetText]
  split
  · apply Guarded.nil
  · rw [String.toList_append]
    apply (Guarded.of_harmless (by decide)).append (Number.guarded_natText _)

/-- The statement of a guarded query is guarded with the strings of its conditions. -/
theorem IsGuarded.guarded_pieces
    {q : Query} {number : String → Nat} {strings : List (List String)}
    (h : q.IsGuarded number strings) :
  Guarded (spelled q.dialect number q.pieces) strings.flatten
  := by
  have htail : Guarded
      (spelled q.dialect number
        [.text q.groupText, .text q.orderText, .text q.limitText, .text q.offsetText]) [] := by
    apply guarded_spelled_text _ _ h.isPlain_groupText
    apply guarded_spelled_text _ _ h.isPlain_orderText
    apply q.guarded_limitText.append
    apply q.guarded_offsetText.append .nil
  rw [pieces, ← List.append_nil strings.flatten]
  apply guarded_spelled_text _ _ h.isPlain_headText
  rw [spelled_append]
  apply h.guarded_conditionPieces.append htail

theorem toList_sql_numbered (q : Query) :
  q.numbered.sql.toList = spelled q.dialect (numberAmong q.named) q.pieces
  := by rw [numbered, String.toList_join, List.flatMap_map, spelled]

end Query

end Shortlist
