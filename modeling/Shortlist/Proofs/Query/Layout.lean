import Shortlist.Proofs.Query.Spelling
import Shortlist.Proofs.Text.Forced

/-!
# The layout of statements

Behind its head a statement has five parts, each of which is a keyword and some items with a
separator between them, and is left out when there are no items.
-/

namespace Shortlist

namespace Query

open Text

variable (q : Query)

/-- The conditions as they are spelled, under numbers for their names. -/
def conditions (number : String → Nat) : List (List Char) :=
  q.predicates.map fun p => spelled q.dialect number p.pieces

/-- The conditions are spelled after `WHERE`, with `AND` between any two. -/
theorem spelled_conditionPieces (number : String → Nat) :
  spelled q.dialect number q.conditionPieces = listed " WHERE " " AND " (q.conditions number)
  := by
  rw [conditionPieces, listed, conditions, List.isEmpty_map]
  split
  · rfl
  · rw [spelled_text, spelled_separated, List.map_map]
    rfl

/-- The grouping is spelled after `GROUP BY`. -/
theorem toList_groupText :
  q.groupText.toList = listed " GROUP BY " "" (q.grouping?.toList.map String.toList)
  := by
  rw [groupText]
  cases q.grouping? with
  | none => rfl
  | some column => simp [listed]

/-- The order terms are spelled after `ORDER BY`, with commas between them. -/
theorem toList_orderText :
  q.orderText.toList
    = listed " ORDER BY " ", " (q.order.map fun term => (term.1 ++ " " ++ term.2.sql).toList)
  := by
  rw [orderText, listed, List.isEmpty_map]
  split
  · rfl
  · rw [String.toList_append, String.toList_intercalate, List.map_map]
    rfl

/-- The limit is spelled after `LIMIT` where an offset needs none before it. -/
theorem toList_limitText (h : q.dialect = .postgres) :
  q.limitText.toList
    = listed " LIMIT " "" (q.limit?.toList.map fun n => (Number.natText n.toNat).toList)
  := by
  rw [limitText, h]
  cases q.limit? with
  | none => cases q.offset? <;> rfl
  | some n => simp [listed]

/-- The offset is spelled after `OFFSET`. -/
theorem toList_offsetText :
  q.offsetText.toList
    = listed " OFFSET " "" (q.offset?.toList.map fun n => (Number.natText n.toNat).toList)
  := by
  rw [offsetText]
  cases q.offset? with
  | none => rfl
  | some n => simp [listed]

/-! ### How the parts begin -/

/-- What stands from the offset on is nothing or begins with `OFFSET`. -/
theorem begins_offset :
  Begins [" OFFSET "] q.offsetText.toList
  := by
  rw [toList_offsetText, ← List.append_nil (listed ..)]
  apply (begins_nil []).listed

/-- What stands from the limit on begins with the keyword of the first part that is there. -/
theorem begins_limit (h : q.dialect = .postgres) :
  Begins [" LIMIT ", " OFFSET "] (q.limitText.toList ++ q.offsetText.toList)
  := by
  rw [toList_limitText q h]
  apply q.begins_offset.listed

/-- The same from the order terms on. -/
theorem begins_order (h : q.dialect = .postgres) :
  Begins [" ORDER BY ", " LIMIT ", " OFFSET "]
    (q.orderText.toList ++ (q.limitText.toList ++ q.offsetText.toList))
  := by
  rw [toList_orderText]
  apply (q.begins_limit h).listed

/-- The same from the grouping on. -/
theorem begins_group (h : q.dialect = .postgres) :
  Begins [" GROUP BY ", " ORDER BY ", " LIMIT ", " OFFSET "]
    (q.groupText.toList ++ (q.orderText.toList ++ (q.limitText.toList ++ q.offsetText.toList)))
  := by
  rw [toList_groupText]
  apply (q.begins_order h).listed

/-- The same from the conditions on. -/
theorem begins_conditions (h : q.dialect = .postgres) (number : String → Nat) :
  Begins [" WHERE ", " GROUP BY ", " ORDER BY ", " LIMIT ", " OFFSET "]
    (listed " WHERE " " AND " (q.conditions number) ++ (q.groupText.toList
      ++ (q.orderText.toList ++ (q.limitText.toList ++ q.offsetText.toList))))
  := by apply (q.begins_group h).listed

/-- The statement as the head and the parts behind it. -/
theorem toList_sql_numbered_eq_append :
  q.numbered.sql.toList
    = q.headText.toList ++ (listed " WHERE " " AND " (q.conditions (numberAmong q.named))
        ++ (q.groupText.toList ++ (q.orderText.toList
          ++ (q.limitText.toList ++ q.offsetText.toList))))
  := by
  rw [toList_sql_numbered, pieces, spelled_text, spelled_append, spelled_conditionPieces,
    spelled_text, spelled_text, spelled_text, spelled_text]
  simp [spelled]

end Query

end Shortlist
