import Shortlist.Error

/-!
# Progress

A step that can fail half-way leaves a state behind whether it fails or not.  `Progress` is
that state and the error that stopped the step, if any; `each` takes a step for every member
of a list until one fails.
-/

namespace Shortlist

/-- The state a step leaves behind, and the error that stopped it. -/
structure Progress (σ : Type) where
  state : σ
  failure : Option Error

namespace Progress

variable {σ τ α : Type}

/-- A step that was finished. -/
def done (s : σ) : Progress σ := ⟨s, none⟩

/-- A step that was stopped. -/
def stop (s : σ) (e : Error) : Progress σ := ⟨s, some e⟩

/-- A step on another state that is part of this one. -/
def map (f : σ → τ) (p : Progress σ) : Progress τ := ⟨f p.state, p.failure⟩

/-- Goes on with another step if the first was finished. -/
def andThen (p : Progress σ) (next : σ → Progress σ) : Progress σ :=
  match p.failure with
  | none => next p.state
  | some e => stop p.state e

/-- The state if the step was finished, the error otherwise. -/
def result (p : Progress σ) : Except Error σ :=
  match p.failure with
  | none => .ok p.state
  | some e => .error e

/-- A step for every member of a list, until one fails. -/
def each (step : σ → α → Progress σ) (s : σ) : List α → Progress σ
  | [] => done s
  | a :: as => (step s a).andThen fun s => each step s as

@[simp]
theorem each_nil (step : σ → α → Progress σ) (s : σ) :
  each step s [] = done s
  := rfl

@[simp]
theorem each_cons (step : σ → α → Progress σ) (s : σ) (a : α) (as : List α) :
  each step s (a :: as) = (step s a).andThen fun s => each step s as
  := rfl

@[simp]
theorem andThen_done (s : σ) (next : σ → Progress σ) :
  (done s).andThen next = next s
  := rfl

@[simp]
theorem andThen_stop (s : σ) (e : Error) (next : σ → Progress σ) :
  (stop s e).andThen next = stop s e
  := rfl

@[simp]
theorem map_failure (f : σ → τ) (p : Progress σ) :
  (p.map f).failure = p.failure
  := rfl

theorem map_result (f : σ → τ) (p : Progress σ) :
  (p.map f).result = p.result.map f
  := by
  obtain ⟨s, failure⟩ := p
  cases failure <;> rfl

/-- A view of the state does not change whether a step is done. -/
theorem map_eq_done_iff (f : σ → τ) (p : Progress σ) (t : τ) :
  p.map f = done t ↔ ∃ s, p = done s ∧ t = f s
  := by
  obtain ⟨s, failure⟩ := p
  constructor
  · intro h
    cases h
    exact ⟨s, rfl, rfl⟩
  · rintro ⟨s, ⟨⟩, rfl⟩
    rfl

/-- What comes next does not look at a change of the state when it commutes with it. -/
theorem map_andThen
    {f : σ → σ} {p : Progress σ} {next next' : σ → Progress σ}
    (h : next' (f p.state) = (next p.state).map f) :
  (p.map f).andThen next' = (p.andThen next).map f
  := by
  obtain ⟨s, failure⟩ := p
  cases failure with
  | none => exact h
  | some e => rfl

/-- Of three steps in a row, either two may be taken together. -/
theorem andThen_assoc (p : Progress σ) (f g : σ → Progress σ) :
  (p.andThen f).andThen g = p.andThen fun s => (f s).andThen g
  := by
  obtain ⟨s, failure⟩ := p
  cases failure <;> rfl

/-- Two steps are done when the first is done and the second is, after it. -/
theorem andThen_eq_done_iff (p : Progress σ) (next : σ → Progress σ) (t : σ) :
  p.andThen next = done t ↔ ∃ s, p = done s ∧ next s = done t
  := by
  obtain ⟨s, failure⟩ := p
  cases failure with
  | none => exact ⟨fun h => ⟨s, rfl, h⟩, fun ⟨_, h, ht⟩ => by cases h; exact ht⟩
  | some e => simp [andThen, done, stop]

/-- Two steps fail when the first fails, or is done and the second fails after it. -/
theorem andThen_failure_iff (p : Progress σ) (next : σ → Progress σ) (e : Error) :
  (p.andThen next).failure = some e
    ↔ p.failure = some e ∨ ∃ s, p = done s ∧ (next s).failure = some e
  := by
  obtain ⟨s, failure⟩ := p
  cases failure <;> simp [andThen, done, stop]

/-- Nothing comes after a step that was stopped. -/
theorem andThen_of_failure {p : Progress σ} {e : Error} (h : p.failure = some e)
    (next : σ → Progress σ) :
  p.andThen next = p
  := by
  obtain ⟨s, failure⟩ := p
  obtain rfl : failure = some e := h
  rfl

/-- What both steps keep is kept by the one after the other. -/
theorem andThen_state
    {P : σ → Prop} {p : Progress σ} (hp : P p.state) {next : σ → Progress σ}
    (kept : ∀ s, P s → P (next s).state) :
  P (p.andThen next).state
  := by
  obtain ⟨s, failure⟩ := p
  cases failure with
  | none => exact kept s hp
  | some e => exact hp

theorem eq_done_iff (p : Progress σ) :
  (∃ s, p = done s) ↔ ∀ e, p.failure ≠ some e
  := by
  obtain ⟨s, failure⟩ := p
  cases failure <;> simp [done]

/-- The result of a step is an error exactly when it failed. -/
theorem result_eq_error_iff (p : Progress σ) (e : Error) :
  p.result = .error e ↔ p.failure = some e
  := by
  obtain ⟨s, failure⟩ := p
  cases failure <;> simp [result]

/-- The result of a step is its state exactly when it is done. -/
theorem result_eq_ok_iff (p : Progress σ) (s : σ) :
  p.result = .ok s ↔ p = done s
  := by
  obtain ⟨t, failure⟩ := p
  cases failure <;> simp [result, done]

/-- The members of two lists are taken in turn. -/
theorem each_append (step : σ → α → Progress σ) (s : σ) (as bs : List α) :
  each step s (as ++ bs) = (each step s as).andThen fun s => each step s bs
  := by
  induction as generalizing s with
  | nil => rfl
  | cons a as ih => simp [ih, andThen_assoc]

/-- The last member is taken after the members before it. -/
theorem each_concat (step : σ → α → Progress σ) (s : σ) (as : List α) (a : α) :
  each step s (as ++ [a]) = (each step s as).andThen fun s => step s a
  := by
  rw [each_append]
  congr 1
  funext t
  rw [each_cons]
  obtain ⟨u, failure⟩ := step t a
  cases failure with
  | none => rfl
  | some e => rfl

/-- A run that stops leaves behind what the step leaves that stops it. -/
theorem each_append_cons_of_failure
    {step : σ → α → Progress σ} {s t : σ} {earlier : List α} {a : α} {e : Error}
    (finished : each step s earlier = done t) (stopped : (step t a).failure = some e)
    (later : List α) :
  each step s (earlier ++ a :: later) = step t a
  := by
  rw [each_append, finished, andThen_done, each_cons]
  generalize step t a = p at stopped ⊢
  obtain ⟨u, failure⟩ := p
  obtain rfl : failure = some e := stopped
  rfl

/-- A run that can be finished stops with one more member when the step of this member stops. -/
theorem each_concat_failure_iff
    (step : σ → α → Progress σ) (s : σ) (as : List α) (a : α) (e : Error) :
  (each step s as).failure = none ∧ (each step s (as ++ [a])).failure = some e
    ↔ ∃ t, each step s as = done t ∧ (step t a).failure = some e
  := by
  constructor
  · rintro ⟨finished, stopped⟩
    obtain ⟨t, ht⟩ : ∃ t, each step s as = done t := by
      rw [eq_done_iff, finished]
      simp
    rw [each_concat, ht, andThen_done] at stopped
    exact ⟨t, ht, stopped⟩
  · rintro ⟨t, finished, stopped⟩
    rw [each_concat, finished, andThen_done]
    exact ⟨rfl, stopped⟩

/-- What every step keeps is kept by a run, whether it finishes or stops. -/
theorem each_state
    {step : σ → α → Progress σ} {P : σ → Prop} (kept : ∀ s a, P s → P (step s a).state)
    {s : σ} (hs : P s) (as : List α) :
  P (each step s as).state
  := by
  induction as generalizing s with
  | nil => exact hs
  | cons a as ih =>
    rw [each_cons]
    apply andThen_state (kept s a hs)
    intro t ht
    apply ih ht

/-- A run on changed states where the steps do not look at the change. -/
theorem each_map
    {step : σ → α → Progress σ} {f : σ → σ} (h : ∀ s a, step (f s) a = (step s a).map f)
    (s : σ) (as : List α) :
  each step (f s) as = (each step s as).map f
  := by
  induction as generalizing s with
  | nil => rfl
  | cons a as ih =>
    rw [each_cons, each_cons, h]
    obtain ⟨t, failure⟩ := step s a
    cases failure with
    | none => exact ih t
    | some e => rfl

/-- A run stops at the first member whose step stops, after finishing the members before it. -/
theorem each_failure_iff (step : σ → α → Progress σ) (s : σ) (as : List α) (e : Error) :
  (each step s as).failure = some e
    ↔ ∃ earlier a later t, as = earlier ++ a :: later ∧ each step s earlier = done t
        ∧ (step t a).failure = some e
  := by
  constructor
  · intro h
    induction as generalizing s with
    | nil => cases h
    | cons a as ih =>
      rcases hs : step s a with ⟨t, failure⟩
      rw [each_cons, hs] at h
      cases failure with
      | some e' => exact ⟨[], a, as, s, rfl, rfl, by rw [hs]; exact h⟩
      | none =>
        obtain ⟨earlier, b, later, u, rfl, hu, he⟩ := ih t h
        refine ⟨a :: earlier, b, later, u, rfl, ?_, he⟩
        rw [each_cons, hs]
        exact hu
  · rintro ⟨earlier, a, later, t, rfl, ht, he⟩
    rcases hu : step t a with ⟨u, failure⟩
    rw [hu] at he
    obtain rfl : failure = some e := he
    rw [each_append, ht, andThen_done, each_cons, hu]
    rfl

end Progress

end Shortlist
