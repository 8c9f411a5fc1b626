import Mathlib.Data.List.Induction
import Mathlib.Data.List.Sort
import Mathlib.Data.String.Basic
import Shortlist.Keyed
import Shortlist.Proofs.Lists

/-!
# The order of keyed entries

Where every key stands once, a lookup does not depend on the order of the entries.  Entries in
ascending order of their keys are determined by their lookups alone, so two lists made by
`putSorted` in different ways are equal as soon as they map the same keys to the same values.
Putting entries one after the other leaves every key at its first place with its last value.
-/

namespace Shortlist

namespace Keyed

section

variable {α β : Type} [DecidableEq α]

/-- A lookup does not depend on the order of entries with distinct keys. -/
theorem get?_of_perm {es fs : List (α × β)} (distinct : (keys es).Nodup) (h : es.Perm fs) (k : α) :
  get? k es = get? k fs
  := by
  have distinct' : (keys fs).Nodup := (h.map _).nodup distinct
  apply Option.ext
  intro v
  rw [get?_eq_some_iff distinct, get?_eq_some_iff distinct']
  apply h.mem_iff

/-- Entries are found as before when entries of other keys are removed. -/
theorem get?_filter_of_keeps {keeps : α → Bool} {k : α} (h : keeps k = true)
    (es : List (α × β)) :
  get? k (es.filter fun e => keeps e.1) = get? k es
  := by
  induction es with
  | nil => rfl
  | cons e es ih =>
    obtain ⟨k', v⟩ := e
    by_cases hk : k' = k
    · subst hk
      simp [get?, h]
    · cases hkeeps : keeps k' <;> simp [get?, hkeeps, hk, ih]

/-- Entries with distinct keys are known from their keys and lookups. -/
theorem filterMap_keys_get? {es : List (α × β)} (distinct : (keys es).Nodup) :
  (keys es).filterMap (fun k => (get? k es).map (k, ·)) = es
  := by
  induction es with
  | nil => rfl
  | cons e es ih =>
    obtain ⟨k, v⟩ := e
    obtain ⟨hk, hes⟩ := List.nodup_cons.mp distinct
    have hrest : ∀ k' ∈ keys es,
        (get? k' ((k, v) :: es)).map (k', ·) = (get? k' es).map (k', ·) := by
      intro k' hk'
      have hne : k ≠ k' := by
        rintro rfl
        exact hk hk'
      rw [get?, if_neg hne]
    change ((k :: keys es).filterMap _) = _
    rw [List.filterMap_cons, List.filterMap_congr hrest, ih hes]
    simp [get?]

/-! ### Putting one entry after the other -/

/-- The entries put into a list one after the other. -/
def putAll (es : List (α × β)) : List (α × β) :=
  es.foldl (fun fs e => put e.1 e.2 fs) []

/-- Every key at its first place, with the value of its last entry. -/
def latest (es : List (α × β)) : List (α × β) :=
  (keys es).eraseDups.filterMap fun k => (get? k es.reverse).map (k, ·)

theorem putAll_concat (es : List (α × β)) (k : α) (v : β) :
  putAll (es ++ [(k, v)]) = put k v (putAll es)
  := List.foldl_concat ..

/-- Every key stands once, at the place of its first entry. -/
theorem keys_putAll (es : List (α × β)) :
  keys (putAll es) = (keys es).eraseDups
  := by
  induction es using List.reverseRecOn with
  | nil => rfl
  | append_singleton es e ih =>
    obtain ⟨k, v⟩ := e
    have hkeys : keys (es ++ [(k, v)]) = keys es ++ [k] := List.map_append
    rw [putAll_concat, keys_put, ih, hkeys]
    split_ifs with h <;> rw [List.mem_eraseDups] at h
    · rw [eraseDups_concat_of_mem h]
    · rw [eraseDups_concat_of_notMem h]

theorem nodup_keys_putAll (es : List (α × β)) :
  (keys (putAll es)).Nodup
  := by
  rw [keys_putAll]
  apply nodup_eraseDups

/-- Every key has the value of its last entry. -/
theorem get?_putAll (es : List (α × β)) (k : α) :
  get? k (putAll es) = get? k es.reverse
  := (get?_putEach k [] es).trans Option.or_none

/-- Putting entries one after the other leaves the latest of them. -/
theorem putAll_eq_latest (es : List (α × β)) :
  putAll es = latest es
  := by
  rw [← filterMap_keys_get? (nodup_keys_putAll es), keys_putAll, latest]
  simp only [get?_putAll]

/-- The latest entries have the keys of all entries, whatever their order. -/
theorem mem_keys_of_perm_latest {es fs : List (α × β)} (h : fs.Perm (latest es)) (k : α) :
  k ∈ keys fs ↔ k ∈ keys es
  := by
  have hkeys : (keys fs).Perm (keys es).eraseDups := by
    rw [← keys_putAll, putAll_eq_latest]
    exact h.map _
  rw [hkeys.mem_iff, List.mem_eraseDups]

/-- The latest entries are found from the end of all entries, whatever their order. -/
theorem get?_reverse_of_perm_latest {es fs : List (α × β)} (h : fs.Perm (latest es)) (k : α) :
  get? k fs.reverse = get? k es.reverse
  := by
  rw [← putAll_eq_latest] at h
  rw [← get?_putAll es]
  symm
  apply get?_of_perm (nodup_keys_putAll es)
  exact h.symm.trans fs.reverse_perm.symm

end

section

variable {β : Type}

/-- The entries are in ascending order of their keys. -/
def Sorted (es : List (String × β)) : Prop :=
  es.Pairwise (·.1 < ·.1)

/-- Keys in ascending order are distinct. -/
theorem Sorted.nodup_keys {es : List (String × β)} (h : Sorted es) :
  (keys es).Nodup
  := by
  apply List.pairwise_map.mpr
  apply h.imp
  intro e f hlt
  apply hlt.ne

/-- An entry is the one that was put or was there before. -/
theorem mem_putSorted {k : String} {v : β} {es : List (String × β)} {e : String × β}
    (h : e ∈ putSorted k v es) :
  e = (k, v) ∨ e ∈ es
  := by
  induction es with
  | nil => exact .inl (List.mem_singleton.mp h)
  | cons d es ih =>
    rw [putSorted] at h
    split_ifs at h
    · exact (List.mem_cons.mp h).imp_right (List.mem_cons_of_mem _)
    · exact List.mem_cons.mp h
    · rcases List.mem_cons.mp h with rfl | h
      · exact .inr List.mem_cons_self
      · exact (ih h).imp_right (List.mem_cons_of_mem _)

/-- Putting an entry where it belongs leaves the entries in order. -/
theorem Sorted.putSorted {es : List (String × β)} (h : Sorted es) (k : String) (v : β) :
  Sorted (putSorted k v es)
  := by
  induction es with
  | nil => exact List.pairwise_singleton ..
  | cons e es ih =>
    obtain ⟨he, hes⟩ := List.pairwise_cons.mp h
    rw [Keyed.putSorted]
    split_ifs with heq hlt
    · subst heq
      exact List.pairwise_cons.mpr ⟨he, hes⟩
    · apply List.pairwise_cons.mpr ⟨_, h⟩
      intro f hf
      rcases List.mem_cons.mp hf with rfl | hf
      · exact hlt
      · exact hlt.trans (he f hf)
    · apply List.pairwise_cons.mpr ⟨_, ih hes⟩
      intro f hf
      rcases mem_putSorted hf with rfl | hf
      · exact lt_of_le_of_ne (not_lt.mp hlt) heq
      · exact he f hf

/-- Entries in ascending order are determined by their lookups. -/
theorem Sorted.eq_of_get?_eq {es fs : List (String × β)} (hes : Sorted es) (hfs : Sorted fs)
    (h : ∀ k, get? k es = get? k fs) :
  es = fs
  := by
  have hperm : es.Perm fs := by
    apply (List.perm_ext_iff_of_nodup hes.nodup_keys.of_map hfs.nodup_keys.of_map).mpr
    rintro ⟨k, v⟩
    rw [← get?_eq_some_iff hes.nodup_keys, ← get?_eq_some_iff hfs.nodup_keys, h]
  apply hperm.eq_of_pairwise _ hes hfs
  intro e f _ _ hef hfe
  exact absurd hfe hef.asymm

end

end Keyed

end Shortlist
