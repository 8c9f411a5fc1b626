import Mathlib.Data.List.Forall2
import Mathlib.Data.List.Induction
import Mathlib.Data.List.Nodup

/-!
# Lists

Where a member of two lists stands, lists without repeated members, and lists whose members are
related one by one.
-/

namespace Shortlist

/-! ### Members -/

/-- A member of two lists stands in the first, or behind it in the second. -/
theorem append_eq_append_cons {α : Type} {as bs earlier later : List α} {a : α}
    (h : as ++ bs = earlier ++ a :: later) :
  (∃ after, as = earlier ++ a :: after ∧ later = after ++ bs)
    ∨ ∃ before, earlier = as ++ before ∧ bs = before ++ a :: later
  := by
  rcases List.append_eq_append_iff.mp h with ⟨before, rfl, rfl⟩ | ⟨after, rfl, hlater⟩
  · exact .inr ⟨before, rfl, rfl⟩
  · cases after with
    | nil => exact .inr ⟨[], by simp, hlater.symm⟩
    | cons b after =>
      obtain ⟨rfl, rfl⟩ := List.cons.inj hlater
      exact .inl ⟨after, rfl, rfl⟩

/-! ### Repeated members -/

section

variable {α : Type} [DecidableEq α] {seen : List α} {a : α}

/-- A member that was there before is dropped. -/
theorem eraseDups_concat_of_mem (h : a ∈ seen) :
  (seen ++ [a]).eraseDups = seen.eraseDups
  := by simp [List.eraseDups_append, List.removeAll, h]

/-- A member that is new is kept, at the end. -/
theorem eraseDups_concat_of_notMem (h : a ∉ seen) :
  (seen ++ [a]).eraseDups = seen.eraseDups ++ [a]
  := by simp [List.eraseDups_append, List.removeAll, List.eraseDups_cons, h]

theorem nodup_eraseDups (as : List α) :
  as.eraseDups.Nodup
  := by
  induction as using List.reverseRecOn with
  | nil => apply List.nodup_nil
  | append_singleton seen a ih =>
    by_cases h : a ∈ seen
    · rw [eraseDups_concat_of_mem h]
      apply ih
    · rw [eraseDups_concat_of_notMem h, ← List.concat_eq_append]
      apply List.Nodup.concat _ ih
      rw [List.mem_eraseDups]
      apply h

theorem eraseDups_of_nodup {as : List α} (h : as.Nodup) :
  as.eraseDups = as
  := by
  induction as using List.reverseRecOn with
  | nil => rfl
  | append_singleton seen a ih =>
    obtain ⟨hseen, -, hdisjoint⟩ := List.nodup_append'.mp h
    rw [eraseDups_concat_of_notMem, ih hseen]
    intro ha
    apply hdisjoint ha (List.mem_singleton_self a)

end

/-! ### Related members -/

/-- Every member of a list is related to something exactly when the list is related to some
list. -/
theorem exists_forall₂_iff {α β : Type} (R : α → β → Prop) (as : List α) :
  (∃ bs, List.Forall₂ R as bs) ↔ ∀ a ∈ as, ∃ b, R a b
  := by
  constructor
  · rintro ⟨bs, h⟩
    induction h with
    | nil => simp
    | cons hab _ ih => exact List.forall_mem_cons.mpr ⟨⟨_, hab⟩, ih⟩
  · intro h
    induction as with
    | nil => exact ⟨[], .nil⟩
    | cons a as ih =>
      obtain ⟨⟨b, hb⟩, has⟩ := List.forall_mem_cons.mp h
      obtain ⟨bs, hbs⟩ := ih has
      exact ⟨b :: bs, .cons hb hbs⟩

/-- Lists whose members are related have related members at the same indices. -/
theorem exists_getElem?_of_forall₂ {α β : Type} {R : α → β → Prop} {as : List α} {bs : List β}
    (h : List.Forall₂ R as bs) {i : Nat} {a : α} (ha : as[i]? = some a) :
  ∃ b, bs[i]? = some b ∧ R a b
  := by
  induction h generalizing i with
  | nil => cases ha
  | cons hab _ ih =>
    cases i with
    | zero =>
      cases ha
      exact ⟨_, rfl, hab⟩
    | succ i => exact ih ha

end Shortlist
