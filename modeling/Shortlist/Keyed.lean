/-!
# Lists of keyed entries

A keyed list is a list of pairs looked up by key.  `put` keeps the order in which keys were
first given and `putSorted` keeps the keys in ascending order; both replace the entry of a
key that is already there.  A lookup after either finds the new entry under its key and the
old entries under the other keys.  After several entries were put, it finds the last.
-/

namespace Shortlist.Keyed

variable {α β : Type} [DecidableEq α]

/-- The entry of a key. -/
def get? (k : α) : List (α × β) → Option β
  | [] => none
  | (k', v) :: es => if k' = k then some v else get? k es

/-- The keys in order. -/
def keys (es : List (α × β)) : List α := es.map (·.1)

/-- Replaces the entry of a key in its place, or adds one at the end. -/
def put (k : α) (v : β) : List (α × β) → List (α × β)
  | [] => [(k, v)]
  | (k', w) :: es => if k' = k then (k, v) :: es else (k', w) :: put k v es

/-- The entries with others put into them, one after the other. -/
def putEach (es fs : List (α × β)) : List (α × β) :=
  fs.foldl (fun es f => put f.1 f.2 es) es

/-- Replaces the entry of a key, or adds one before the first greater key. -/
def putSorted [LT α] [DecidableLT α] (k : α) (v : β) : List (α × β) → List (α × β)
  | [] => [(k, v)]
  | (k', w) :: es =>
    if k' = k then (k, v) :: es
    else if k < k' then (k, v) :: (k', w) :: es
    else (k', w) :: putSorted k v es

theorem get?_put (k j : α) (v : β) (es : List (α × β)) :
  get? j (put k v es) = if k = j then some v else get? j es
  := by
  induction es with
  | nil => rfl
  | cons e es ih =>
    obtain ⟨k', w⟩ := e
    by_cases h : k' = k
    · subst h
      by_cases hj : k' = j <;> simp [put, get?, hj]
    · by_cases hj : k' = j
      · subst hj
        have h' : k ≠ k' := fun e => h e.symm
        simp [put, get?, h, h']
      · simp [put, get?, h, hj, ih]

theorem get?_putSorted [LT α] [DecidableLT α] (k j : α) (v : β) (es : List (α × β)) :
  get? j (putSorted k v es) = if k = j then some v else get? j es
  := by
  induction es with
  | nil => rfl
  | cons e es ih =>
    obtain ⟨k', w⟩ := e
    by_cases h : k' = k
    · subst h
      by_cases hj : k' = j <;> simp [putSorted, get?, hj]
    · by_cases hlt : k < k'
      · simp [putSorted, get?, h, hlt]
      · by_cases hj : k' = j
        · subst hj
          have h' : k ≠ k' := fun e => h e.symm
          simp [putSorted, get?, h, hlt, h']
        · simp [putSorted, get?, h, hlt, hj, ih]

theorem get?_isSome (k : α) (es : List (α × β)) :
  (get? k es).isSome = true ↔ k ∈ keys es
  := by
  induction es with
  | nil => simp [get?, keys]
  | cons e es ih =>
    obtain ⟨k', v⟩ := e
    by_cases h : k' = k
    · simp [get?, keys, h]
    · have h' : k ≠ k' := fun e => h e.symm
      simp [get?, h, ih, keys, h']

/-- A key given anew comes last, a key given before keeps its place. -/
theorem keys_put (k : α) (v : β) (es : List (α × β)) :
  keys (put k v es) = if k ∈ keys es then keys es else keys es ++ [k]
  := by
  induction es with
  | nil => simp [put, keys]
  | cons e es ih =>
    obtain ⟨k', w⟩ := e
    by_cases h : k' = k
    · simp [put, keys, h]
    · have h' : k ≠ k' := fun e => h e.symm
      simp only [put, h, if_false]
      change k' :: keys (put k v es) = _
      rw [ih]
      by_cases hm : k ∈ keys es <;> simp_all [keys]

theorem get?_eq_none_iff (k : α) (es : List (α × β)) :
  get? k es = none ↔ k ∉ keys es
  := by
  rw [← get?_isSome]
  simp

theorem get?_append (k : α) (es fs : List (α × β)) :
  get? k (es ++ fs) = (get? k es).or (get? k fs)
  := by
  induction es with
  | nil => rfl
  | cons e es ih =>
    obtain ⟨k', v⟩ := e
    by_cases h : k' = k <;> simp [get?, h, ih]

theorem mem_of_get? {k : α} {v : β} {es : List (α × β)} (h : get? k es = some v) :
  (k, v) ∈ es
  := by
  induction es with
  | nil => cases h
  | cons e es ih =>
    rw [get?] at h
    split at h
    next hk =>
      cases hk
      cases h
      apply List.mem_cons_self
    next => apply List.mem_cons_of_mem _ (ih h)

/-- Where every key stands once, an entry is found under its key. -/
theorem get?_eq_some_iff {es : List (α × β)} (h : (keys es).Nodup) (k : α) (v : β) :
  get? k es = some v ↔ (k, v) ∈ es
  := by
  induction es with
  | nil => simp [get?]
  | cons e es ih =>
    obtain ⟨k', w⟩ := e
    obtain ⟨hk, hes⟩ := List.nodup_cons.mp h
    by_cases hkk : k' = k
    · subst hkk
      have hv : (k', v) ∉ es := by
        intro hv
        apply hk
        apply List.mem_map.mpr ⟨_, hv, rfl⟩
      simp [get?, hv, eq_comm]
    · simp [get?, hkk, ih hes, Ne.symm hkk]

/-- A key given anew is added at the end. -/
theorem put_of_notMem {k : α} {es : List (α × β)} (v : β) (h : k ∉ keys es) :
  put k v es = es ++ [(k, v)]
  := by
  induction es with
  | nil => rfl
  | cons e es ih =>
    obtain ⟨k', w⟩ := e
    simp only [keys, List.map_cons, List.mem_cons, not_or] at h
    rw [put, if_neg (Ne.symm h.1), ih h.2]
    rfl

theorem putEach_append (es fs gs : List (α × β)) :
  putEach es (fs ++ gs) = putEach (putEach es fs) gs
  := List.foldl_append

/-- The last entry that was put is found. -/
theorem get?_putEach (k : α) (es fs : List (α × β)) :
  get? k (putEach es fs) = (get? k fs.reverse).or (get? k es)
  := by
  induction fs generalizing es with
  | nil => rfl
  | cons f fs ih =>
    have hf : get? k [f] = if f.1 = k then some f.2 else none := rfl
    change get? k (putEach (put f.1 f.2 es) fs) = _
    rw [ih, get?_put, List.reverse_cons, get?_append, Option.or_assoc, hf]
    split <;> rfl

/-- Entries with new and distinct keys are added at the end. -/
theorem putEach_of_fresh {es fs : List (α × β)} (fresh : ∀ k ∈ keys fs, k ∉ keys es)
    (distinct : (keys fs).Nodup) :
  putEach es fs = es ++ fs
  := by
  induction fs generalizing es with
  | nil => rw [List.append_nil]; rfl
  | cons f fs ih =>
    obtain ⟨hf, hfs⟩ := List.forall_mem_cons.mp fresh
    obtain ⟨hmem, hnodup⟩ := List.nodup_cons.mp distinct
    change putEach (put f.1 f.2 es) fs = _
    rw [put_of_notMem f.2 hf, ih _ hnodup, List.append_assoc]
    · rfl
    · intro k hk
      rw [keys, List.map_append, List.mem_append, not_or]
      refine ⟨hfs k hk, ?_⟩
      intro hkf
      obtain rfl := List.mem_singleton.mp hkf
      exact hmem hk

end Shortlist.Keyed
