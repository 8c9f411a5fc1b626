import Shortlist.Json.Reader
import Shortlist.Proofs.Json.Reordered

/-!
# Trees of JSON documents

A repeated member of an object keeps its place and takes the last value, so the members of
every object that was read have distinct names.  A tree is reordered into itself exactly when
it has this property, at any depth.
-/

namespace Shortlist

namespace Json

/-- The members have distinct names, and so have those of the objects among their values. -/
structure Distinct (ms : List (String × Json)) : Prop where
  names : (Keyed.keys ms).Nodup
  values : ValuesReordered ms ms

/-- Putting a member with distinct names among such members leaves them so. -/
theorem ValuesReordered.put {ms : List (String × Json)} (h : ValuesReordered ms ms)
    (name : String) {j : Json} (hj : j.Reordered j) :
  ValuesReordered (Keyed.put name j ms) (Keyed.put name j ms)
  := by
  induction ms with
  | nil => exact .cons name hj .nil
  | cons m ms ih =>
    obtain ⟨other, j'⟩ := m
    cases h with
    | cons _ h hs =>
      rw [Keyed.put]
      split_ifs
      · exact .cons name hj hs
      · exact .cons other h (ih hs)

/-- A repeated name takes the place of the earlier one, so the names stay distinct. -/
theorem Distinct.put {ms : List (String × Json)} (h : Distinct ms) (name : String) {j : Json}
    (hj : j.Reordered j) :
  Distinct (Keyed.put name j ms)
  := by
  constructor
  · rw [Keyed.keys_put]
    split_ifs with hname
    · exact h.names
    · rw [← List.concat_eq_append]
      exact h.names.concat hname
  · exact h.values.put name hj

/-- What is read in at most so many calls has distinct names, the members of an object as long as
those already read have them. -/
structure ReadsDistinct (fuel : Nat) : Prop where
  value : ∀ {depth cs j rest}, readValue? fuel depth cs = some (j, rest) → j.Reordered j
  items : ∀ {depth cs js rest}, readItems? fuel depth cs = some (js, rest) → ItemsReordered js js
  members : ∀ {depth ms cs ms' rest}, readMembers? fuel depth ms cs = some (ms', rest) →
    Distinct ms → Distinct ms'

namespace ReadsDistinct

variable {fuel depth : Nat} {cs rest : List Char}

/-- A value is read with distinct names when all that is read with less fuel is. -/
theorem value_succ (ih : ReadsDistinct fuel) {j : Json}
    (h : readValue? (fuel + 1) depth cs = some (j, rest)) :
  j.Reordered j
  := by
  rw [readValue?] at h
  split at h
  · cases h
    exact .null
  · cases h
    exact .bool true
  · cases h
    exact .bool false
  · obtain ⟨_, -, hj⟩ := Option.map_eq_some_iff.mp h
    cases hj
    exact .string _
  · split at h
    · cases h
    · split at h
      · cases h
        exact .array .nil
      · obtain ⟨_, hitems, hj⟩ := Option.map_eq_some_iff.mp h
        cases hj
        exact .array (ih.items hitems)
  · split at h
    · cases h
    · split at h
      · cases h
        exact .object List.nodup_nil .nil .nil
      · obtain ⟨_, hmembers, hj⟩ := Option.map_eq_some_iff.mp h
        cases hj
        obtain ⟨names, values⟩ := ih.members hmembers ⟨List.nodup_nil, .nil⟩
        exact .object names values .rfl
  · obtain ⟨_, -, hj⟩ := Option.map_eq_some_iff.mp h
    cases hj
    exact .number _

/-- The items of an array are read with distinct names when all that is read with less fuel is. -/
theorem items_succ (ih : ReadsDistinct fuel) {js : List Json}
    (h : readItems? (fuel + 1) depth cs = some (js, rest)) :
  ItemsReordered js js
  := by
  rw [readItems?] at h
  split at h
  · cases h
  · split at h
    · obtain ⟨_, hitems, hjs⟩ := Option.map_eq_some_iff.mp h
      cases hjs
      exact .cons (ih.value ‹_›) (ih.items hitems)
    · cases h
      exact .cons (ih.value ‹_›) .nil
    · cases h

/-- The members of an object are read with distinct names when all that is read with less fuel is.
-/
theorem members_succ (ih : ReadsDistinct fuel) {ms ms' : List (String × Json)}
    (h : readMembers? (fuel + 1) depth ms cs = some (ms', rest)) (distinct : Distinct ms) :
  Distinct ms'
  := by
  rw [readMembers?] at h
  split at h
  · split at h
    · cases h
    · split at h
      · split at h
        · cases h
        · have hput := fun name => distinct.put name (ih.value ‹_›)
          dsimp only at h
          -- the member just read is put among the others before the reader goes on or stops
          split at h
          · exact ih.members h (hput _)
          · cases h
            exact hput _
          · cases h
      · cases h
  · cases h

end ReadsDistinct

theorem readsDistinct (fuel : Nat) :
  ReadsDistinct fuel
  := by
  induction fuel with
  | zero =>
    constructor
    · intro _ _ _ _ h
      cases h
    · intro _ _ _ _ h
      cases h
    · intro _ _ _ _ _ h
      cases h
  | succ fuel ih => exact ⟨ih.value_succ, ih.items_succ, ih.members_succ⟩

/-- The members of every object of a document have distinct names. -/
theorem reordered_of_read? {s : String} {j : Json} (h : read? s = some j) :
  j.Reordered j
  := by
  rw [read?] at h
  split at h
  · split at h <;> cases h
    exact (readsDistinct _).value ‹_›
  · cases h

end Json

end Shortlist
