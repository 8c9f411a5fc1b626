import Shortlist.Proofs.Handlers.Key
import Shortlist.Proofs.Keyed.Order

/-!
# Registered handlers

Handlers are registered one after the other, under any names.  The last one registered under a name
with the key of a given name is found under this name, whatever was registered in between, and
there are as many handlers as there are keys among the names.  The step lemmas say what one
registration makes of this, the run lemmas what holds after all of them.
-/

namespace Shortlist.Handlers

variable {σ : Type}

/-- The handlers after a sequence of registrations. -/
def registerAll (calls : List (String × Handler σ)) : Handlers σ :=
  calls.foldl (fun h call => h.register call.1 call.2) .empty

theorem registerAll_concat (calls : List (String × Handler σ)) (call : String × Handler σ) :
  registerAll (calls ++ [call]) = (registerAll calls).register call.1 call.2
  := List.foldl_concat ..

/-! ### Lookups -/

/-- The handler is the last one registered under a name with the key of the given name. -/
def IsLastFor (calls : List (String × Handler σ)) (name : String) (handler : Handler σ) : Prop :=
  ∃ earlier other later, calls = earlier ++ (other, handler) :: later
    ∧ keyOf other = keyOf name ∧ ∀ call ∈ later, keyOf call.1 ≠ keyOf name

theorem not_isLastFor_nil (name : String) (handler : Handler σ) :
  ¬ IsLastFor [] name handler
  := by
  rintro ⟨earlier, other, later, hcalls, -⟩
  simp at hcalls

/-- One more registration is the last one for its key, and changes nothing for other keys. -/
theorem isLastFor_concat (calls : List (String × Handler σ)) (call : String × Handler σ)
    (name : String) (handler : Handler σ) :
  IsLastFor (calls ++ [call]) name handler
    ↔ if keyOf call.1 = keyOf name then call.2 = handler else IsLastFor calls name handler
  := by
  constructor
  · rintro ⟨earlier, other, later, hcalls, hkey, hlater⟩
    cases later using List.reverseRecOn with
    | nil =>
      obtain ⟨-, hcall⟩ := List.append_inj' hcalls rfl
      obtain rfl := List.singleton_inj.mp hcall
      rw [if_pos hkey]
    | append_singleton later last =>
      rw [← List.cons_append, ← List.append_assoc] at hcalls
      obtain ⟨rfl, hcall⟩ := List.append_inj' hcalls rfl
      obtain rfl := List.singleton_inj.mp hcall
      rw [List.forall_mem_append, List.forall_mem_singleton] at hlater
      rw [if_neg hlater.2]
      exact ⟨earlier, other, later, rfl, hkey, hlater.1⟩
  · split
    next hkey =>
      rintro rfl
      exact ⟨calls, call.1, [], rfl, hkey, by simp⟩
    next hkey =>
      rintro ⟨earlier, other, later, rfl, hother, hlater⟩
      refine ⟨earlier, other, later ++ [call], by simp, hother, ?_⟩
      rw [List.forall_mem_append, List.forall_mem_singleton]
      exact ⟨hlater, hkey⟩

/-- The handler that is found under a name is the last one registered for it. -/
theorem get?_registerAll_eq_some_iff (calls : List (String × Handler σ)) (name : String)
    (handler : Handler σ) :
  (registerAll calls).get? name = some handler ↔ IsLastFor calls name handler
  := by
  induction calls using List.reverseRecOn with
  | nil =>
    apply iff_of_false _ (not_isLastFor_nil name handler)
    rintro ⟨⟩
  | append_singleton calls call ih =>
    rw [registerAll_concat, get?_register, isLastFor_concat]
    split
    · rw [Option.some_inj]
    · exact ih

/-- Under a name there is a handler when one was registered under some name with its key. -/
theorem exists_isLastFor_iff (calls : List (String × Handler σ)) (name : String) :
  (∃ handler, IsLastFor calls name handler) ↔ ∃ call ∈ calls, keyOf call.1 = keyOf name
  := by
  induction calls using List.reverseRecOn with
  | nil => simp [not_isLastFor_nil]
  | append_singleton calls call ih =>
    simp only [isLastFor_concat, List.mem_append, List.mem_singleton, or_and_right, exists_or,
      exists_eq_left, ← ih]
    split
    next hkey => simp [hkey]
    next hkey => simp [hkey]

/-! ### The number of handlers -/

theorem sorted_registerAll (calls : List (String × Handler σ)) :
  Keyed.Sorted (registerAll calls).slots
  := by
  induction calls using List.reverseRecOn with
  | nil => apply List.Pairwise.nil
  | append_singleton calls call ih =>
    rw [registerAll_concat]
    apply ih.putSorted

/-- The keys are those of the names under which something was registered. -/
theorem mem_keys_registerAll_iff (calls : List (String × Handler σ)) (key : String) :
  key ∈ (registerAll calls).keys ↔ key ∈ calls.map (keyOf ·.1)
  := by
  induction calls using List.reverseRecOn with
  | nil => simp [registerAll, keys, Keyed.keys, empty]
  | append_singleton calls call ih =>
    rw [registerAll_concat, keys, register, ← Keyed.get?_isSome, Keyed.get?_putSorted,
      List.map_append, List.mem_append, ← ih, keys, ← Keyed.get?_isSome]
    split
    next h => simp [h]
    next h => simp [Ne.symm h]

/-- There are as many handlers as there are keys among the names. -/
theorem size_registerAll (calls : List (String × Handler σ)) :
  (registerAll calls).size = (calls.map (keyOf ·.1)).toFinset.card
  := by
  have hlength : (registerAll calls).size = (registerAll calls).keys.length := by
    rw [size, keys, Keyed.keys, List.length_map]
  have hkeys : (registerAll calls).keys.toFinset = (calls.map (keyOf ·.1)).toFinset := by
    ext key
    rw [List.mem_toFinset, List.mem_toFinset, mem_keys_registerAll_iff]
  have hdistinct : (registerAll calls).keys.Nodup := (sorted_registerAll calls).nodup_keys
  rw [hlength, ← hkeys, List.toFinset_card_of_nodup hdistinct]

/-! ### All registrations -/

/-- After any registrations the last handler registered under a name with the key of a given name
is found under this name, none when there was no such registration, and there are as many handlers
as there are keys among the names.  A character that is no ASCII letter or digit cuts a key in two;
a key is its own key, has letters and digits only and starts with no small letter.  So a field and
its parameter have the same handler, and fields with the same parameter share theirs. -/
theorem registered_registerAll (calls : List (String × Handler σ)) :
  (∀ name handler, (registerAll calls).get? name = some handler
      ↔ ∃ earlier other later, calls = earlier ++ (other, handler) :: later
          ∧ keyOf other = keyOf name ∧ ∀ call ∈ later, keyOf call.1 ≠ keyOf name)
    ∧ (∀ name, (registerAll calls).get? name = none
        ↔ ∀ call ∈ calls, keyOf call.1 ≠ keyOf name)
    ∧ (registerAll calls).size = (calls.map (keyOf ·.1)).toFinset.card
    ∧ (∀ s t c, c.isAlphanum = false →
        keyOf (s ++ String.singleton c ++ t) = keyOf s ++ keyOf t)
    ∧ (∀ s, keyOf (keyOf s) = keyOf s)
    ∧ (∀ s, ∀ c ∈ (keyOf s).toList, c.isAlphanum = true)
    ∧ (∀ s, ∀ c ∈ (keyOf s).toList.head?, c.isLower = false)
    ∧ (∀ f : Field, keyOf f.parameter = keyOf f.text
        ∧ (registerAll calls).get? f.parameter = (registerAll calls).get? f.text)
    ∧ ∀ f g : Field, f.parameter = g.parameter →
        (registerAll calls).get? f.text = (registerAll calls).get? g.text
  := by
  have hfield (f : Field) :
      (registerAll calls).get? f.parameter = (registerAll calls).get? f.text := by
    rw [get?, get?, keyOf_parameter]
  refine ⟨get?_registerAll_eq_some_iff calls, ?_, size_registerAll calls, ?_, keyOf_keyOf, ?_, ?_,
    fun f => ⟨keyOf_parameter f, hfield f⟩, ?_⟩
  · intro name
    have hsome := exists_isLastFor_iff calls name
    simp only [← get?_registerAll_eq_some_iff] at hsome
    rw [← Option.not_isSome_iff_eq_none, Option.isSome_iff_exists, hsome]
    simp
  · intro s t c hc
    apply keyOf_append hc
  · intro s
    rw [keyOf, String.toList_ofList]
    apply isAlphanum_of_mem_keyFrom
  · intro s
    rw [keyOf, String.toList_ofList]
    apply isLower_of_mem_head_keyFrom
  · intro f g hshared
    rw [← hfield, hshared, hfield]

/-- Three handlers under two keys: the third is found in place of the first, and two fields that
share a parameter share the second. -/
theorem registered_registerAll_posts :
  ∃ (log : String → Handler (List String)) (calls : List (String × Handler (List String)))
      (f g : Field),
    calls = [("created_at", log "first"), ("author.name", log "second"), ("createdAt", log "third")]
      ∧ (registerAll calls).get? "-created--at" = some (log "third")
      ∧ (registerAll calls).get? "created" = none
      ∧ (registerAll calls).size = 2
      ∧ keyOf "author.name" = keyOf "author" ++ keyOf "name"
      ∧ f.text = "author.name" ∧ g.text = "author_name" ∧ f.parameter = g.parameter
      ∧ (registerAll calls).get? f.text = (registerAll calls).get? g.text
  := by
  let log (label : String) : Handler (List String) := fun lines _ _ => .done (lines ++ [label])
  let calls := [("created_at", log "first"), ("author.name", log "second"),
    ("createdAt", log "third")]
  obtain ⟨hsome, hnone, hsize, happend, -, -, -, -, hshared⟩ := registered_registerAll calls
  refine ⟨log, calls, ⟨"author.name", by decide⟩, ⟨"author_name", by decide⟩, rfl, ?_, ?_, ?_,
    happend "author" "name" '.' (by decide), rfl, rfl, by decide, hshared _ _ (by decide)⟩
  · apply (hsome _ _).mpr
    exact ⟨[("created_at", log "first"), ("author.name", log "second")], "createdAt", [], rfl,
      by decide, by simp⟩
  · apply (hnone _).mpr
    have hkeys : ∀ key ∈ calls.map (keyOf ·.1), key ≠ keyOf "created" := by decide
    intro call hcall
    apply hkeys _ (List.mem_map_of_mem hcall)
  · rw [hsize]
    decide

end Shortlist.Handlers
