import Shortlist.Proofs.Join.Condition
import Shortlist.Proofs.Text.Quoting
import Shortlist.Query.Statement

/-!
# Quotes in joins

A join is written into a statement as plain names and its condition, so it closes when its
condition does.  Whether the condition closes is not part of the rule for conditions: a quote may
be put behind any condition that is not too long.
-/

namespace Shortlist.Join

open Text

/-! ### The rule -/

/-- No part of the rule is broken by a quote behind a condition. -/
theorem IsAllowed.push {s : String} (h : IsAllowed s) (size : s.utf8ByteSize < 1000)
    (quote : Quote) :
  IsAllowed (s.push quote.char)
  where
  visible := by
    obtain ⟨c, hc, hblank⟩ := h.visible
    rw [String.toList_push]
    exact ⟨c, List.mem_append_left _ hc, hblank⟩
  size := by
    have hsize : quote.char.utf8Size = 1 := by cases quote <;> rfl
    rw [String.utf8ByteSize_push, hsize]
    exact size
  marks mark hmark hpart := by
    have hnot : ∀ mark ∈ ["--", "/*", "*/", ";", "`"], quote.char ∉ mark.toList := by
      cases quote <;> decide
    rw [String.toList_push] at hpart
    apply h.marks mark hmark (infix_of_infix_concat hpart (hnot mark hmark))
  fragments fragment hfragment hpart := by
    have hnot : ∀ fragment ∈ ["pg_", "sqlite_", "information_schema", "sys.", "0x", "\\x"],
        quote.char.toLower ∉ fragment.toList := by
      cases quote <;> decide
    rw [String.toList_push, List.map_append, List.map_singleton] at hpart
    apply h.fragments fragment hfragment (infix_of_infix_concat hpart (hnot fragment hfragment))
  words := by
    rw [String.toList_push]
    rintro ⟨run, hrun, forbidden⟩
    have hquote : isWordChar quote.char = false := by cases quote <;> decide
    apply h.words ⟨run, hrun.of_concat hquote, forbidden⟩

/-- A join is accepted when its table and its alias are names and its condition is allowed. -/
theorem check_eq_ok_iff (j : Join) :
  j.check = .ok ()
    ↔ isFieldReference j.table = true ∧ isIdentifier j.aliasName = true
      ∧ ∀ condition, j.condition = some condition → IsAllowed condition
  := by
  simp only [← isCondition_eq_true_iff]
  rw [check]
  split_ifs <;> cases j.condition <;> simp_all

/-- A quote behind the condition of a join is not noticed, when the condition may be longer. -/
theorem check_push {j : Join} (h : j.check = .ok ()) {condition : String}
    (hcondition : j.condition = some condition) (size : condition.utf8ByteSize < 1000)
    (quote : Quote) :
  Join.check { j with condition := some (condition.push quote.char) } = .ok ()
  := by
  obtain ⟨table, aliasName, allowed⟩ := (check_eq_ok_iff j).mp h
  rw [check_eq_ok_iff]
  refine ⟨table, aliasName, ?_⟩
  rintro _ ⟨⟩
  apply (allowed condition hcondition).push size

/-! ### The text -/

/-- The text of a join up to its condition. -/
def lead (j : Join) : String :=
  " " ++ j.kind.sql ++ " " ++ j.table ++ " " ++ j.aliasName

/-- A join is written as its lead and its condition. -/
theorem sql_eq (j : Join) :
  j.sql = j.lead ++ j.condition.elim "" (" ON " ++ ·)
  := by
  rw [sql, lead]
  cases j.condition <;> rfl

/-- What comes before the condition of a join that may be made is plain. -/
theorem isPlain_lead {j : Join} (h : j.check = .ok ()) :
  isPlain j.lead = true
  := by
  obtain ⟨table, aliasName, -⟩ := (check_eq_ok_iff j).mp h
  have hkind : isPlain j.kind.sql = true := by cases j.kind <;> decide
  simp only [lead, isPlain_append, hkind, isPlain_of_isFieldReference table,
    isPlain_of_isIdentifier aliasName]
  decide

/-- The condition of the join, if there is one, closes. -/
def HasClosed (j : Join) : Prop :=
  ∀ condition, j.condition = some condition → Closes condition.toList

/-- A join whose condition closes is written as a text that closes. -/
theorem HasClosed.closes_sql {j : Join} (closed : j.HasClosed) (h : j.check = .ok ()) :
  Closes j.sql.toList
  := by
  have hlead := closes_of_isPlain (isPlain_lead h)
  rw [sql_eq, String.toList_append]
  cases hcondition : j.condition with
  | none => apply hlead.append closes_nil
  | some condition =>
    rw [Option.elim_some, String.toList_append]
    apply hlead.append
    apply Closes.append (by decide) (closed condition hcondition)

end Shortlist.Join
