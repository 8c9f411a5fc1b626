import Shortlist.Proofs.Criteria.Violation

/-!
# Reports of the first violation

A part of the reader reports violations when it fails exactly if there is one, and its error then
names what is at the first of their places.  Parts that are run one after the other report the
violations of all of them, when the places of each come before those of the next.
-/

namespace Shortlist

variable {α β γ : Type} {V W : Place → Prop}

/-! ### The first of the places -/

/-- There is one first place at most. -/
theorem Place.IsFirst.unique {p q : Place} (hp : p.IsFirst V) (hq : q.IsFirst V) :
  q = p
  := by
  by_contra hne
  have hlt := hp.first q hq.violated hne
  have hlt' := hq.first p hp.violated (Ne.symm hne)
  apply List.lt_asymm hlt hlt'

/-- The place is in part `k` of what has the rank `n`. -/
def Place.LiesIn (p : Place) (n : List Nat) (k : Nat) : Prop :=
  ∃ rest, p.rank = n ++ k :: rest

/-- A place in an earlier part comes before a place in a later one. -/
theorem Place.LiesIn.rank_lt {p q : Place} {n : List Nat} {i k : Nat} (hp : p.LiesIn n i)
    (hq : q.LiesIn n k) (h : i < k) :
  p.rank < q.rank
  := by
  obtain ⟨rest, hp⟩ := hp
  obtain ⟨rest', hq⟩ := hq
  rw [hp, hq]
  apply List.append_left_lt
  apply List.Lex.rel h

/-- Of the members of which something holds the first is found, at a place before all others. -/
theorem Place.exists_isFirst_of_find? {ms : List (String × Json)} {bad : String × Json → Bool}
    {m : String × Json} (h : ms.find? bad = some m) {place : Nat → String → Place} {n : List Nat}
    (liesIn : ∀ k name, (place k name).LiesIn n k)
    (violated : ∀ k name j, ms[k]? = some (name, j) → bad (name, j) = true → V (place k name))
    (others : ∀ q, V q → (∃ k name j, ms[k]? = some (name, j) ∧ bad (name, j) = true
      ∧ q = place k name) ∨ ∀ k name, (place k name).rank < q.rank) :
  ∃ k, (place k m.1).IsFirst V
  := by
  obtain ⟨name, j⟩ := m
  obtain ⟨hbad, k, hk, heq, first⟩ := List.find?_eq_some_iff_getElem.mp h
  have hget : ms[k]? = some (name, j) := by rw [List.getElem?_eq_getElem hk, heq]
  use k
  constructor
  · apply violated k name j hget hbad
  · intro q hq hne
    rcases others q hq with ⟨k', name', j', hget', hbad', rfl⟩ | hlt
    · have hle : k ≤ k' := by
        by_contra hlt
        obtain ⟨hk', heq'⟩ := List.getElem?_eq_some_iff.mp hget'
        have hnot := first k' (Nat.lt_of_not_le hlt)
        rw [heq', hbad'] at hnot
        cases hnot
      -- one member has one name, so another place is that of another member
      have hne' : k ≠ k' := by
        rintro rfl
        rw [hget] at hget'
        cases hget'
        cases hne rfl
      apply (liesIn k name).rank_lt (liesIn k' name')
      apply Nat.lt_of_le_of_ne hle hne'
    · apply hlt

/-- The first number of the rank: the options are checked in the order of these. -/
def Place.phase (p : Place) : Nat := p.rank.headD 0

/-- Every place lies in the part of its phase. -/
theorem Place.liesIn_phase (p : Place) :
  p.LiesIn [] p.phase
  := by cases p <;> exact ⟨_, rfl⟩

theorem Place.LiesIn.phase {p : Place} {n k : Nat} (h : p.LiesIn [n] k) :
  p.phase = n
  := by
  obtain ⟨rest, hrank⟩ := h
  rw [Place.phase, hrank]
  rfl

theorem not_along_nil (V : Nat → α → Place → Prop) (p : Place) :
  ¬ Along V [] p
  := by
  rintro ⟨i, a, ⟨⟩, -⟩

/-! ### Parts of the reader -/

/-- The reader fails exactly when there is a violation, and then reports the first one. -/
structure Reports (x : Except Error α) (V : Place → Prop) : Prop where
  ok : ∀ a, x = .ok a → ∀ p, ¬ V p
  error : ∀ e, x = .error e → ∃ p : Place, p.IsFirst V ∧ e.culprit? = some p.culprit

/-- All errors of the reader name the same thing. -/
def Blames (x : Except Error α) (culprit : Culprit) : Prop :=
  ∀ e, x = .error e → e.culprit? = some culprit

/-- Two readers that name the same thing do so when one comes after the other. -/
theorem Blames.bind {x : Except Error α} {f : α → Except Error β} {culprit : Culprit}
    (hx : Blames x culprit) (hf : ∀ a, Blames (f a) culprit) :
  Blames (x >>= f) culprit
  := by
  intro e he
  cases x with
  | error e' =>
    cases he
    apply hx e rfl
  | ok a => apply hf a e he

theorem Blames.map {x : Except Error α} {culprit : Culprit} (hx : Blames x culprit) (f : α → β) :
  Blames (x.map f) culprit
  := by
  intro e he
  cases x with
  | error e' =>
    cases he
    apply hx e rfl
  | ok a => cases he

namespace Reports

variable {x : Except Error α}

/-- Violations may be described in another way. -/
theorem congr (h : Reports x V) (hiff : ∀ p, V p ↔ W p) :
  Reports x W
  := by
  obtain rfl : V = W := funext fun p => propext (hiff p)
  exact h

/-- A reader that succeeds reports that there are no violations. -/
theorem of_ok {a : α} (h : ∀ p, ¬ V p) :
  Reports (.ok a : Except Error α) V
  := by
  constructor
  · exact fun _ _ => h
  · rintro _ ⟨⟩

/-- A reader that fails reports the place its error names, when this is the first. -/
theorem of_error {e : Error} {p : Place} (first : p.IsFirst V)
    (culprit : e.culprit? = some p.culprit) :
  Reports (.error e : Except Error α) V
  := by
  constructor
  · rintro _ ⟨⟩
  · rintro _ ⟨⟩
    exact ⟨p, first, culprit⟩

/-- Where there is one place only there is nothing to compare. -/
theorem of_only {e : Error} {p : Place} (h : V p) (only : ∀ q, V q → q = p)
    (culprit : e.culprit? = some p.culprit) :
  Reports (.error e : Except Error α) V
  := by
  apply of_error _ culprit
  use h
  intro q hq hne
  cases hne (only q hq)

/-- A reader for which there is one place only. -/
theorem of_blames {p : Place} {kind : Prop} (blames : Blames x p.culprit)
    (accepts : (∃ a, x = .ok a) ↔ kind) :
  Reports x fun q => q = p ∧ ¬ kind
  := by
  constructor
  · rintro a ha q ⟨-, hkind⟩
    apply hkind (accepts.mp ⟨a, ha⟩)
  · intro e he
    use p
    refine ⟨⟨⟨rfl, ?_⟩, ?_⟩, blames e he⟩
    · rw [← accepts, he]
      rintro ⟨_, ⟨⟩⟩
    · rintro q ⟨rfl, -⟩ hne
      cases hne rfl

/-- What comes after is violated at later places. -/
theorem bind {f : α → Except Error β} (hx : Reports x V) (hf : ∀ a, x = .ok a → Reports (f a) W)
    (before : ∀ p q, V p → W q → p.rank < q.rank) :
  Reports (x >>= f) fun p => V p ∨ W p
  := by
  cases x with
  | error e =>
    obtain ⟨p, first, culprit⟩ := hx.error e rfl
    apply of_error (p := p) _ culprit
    use .inl first.violated
    rintro q (hq | hq) hne
    · apply first.first q hq hne
    · apply before p q first.violated hq
  | ok a =>
    apply (hf a rfl).congr
    intro p
    rw [or_iff_right (hx.ok a rfl p)]

/-- What is made of a result does not change the report. -/
theorem map (hx : Reports x V) (f : α → β) :
  Reports (x >>= fun a => pure (f a)) V
  := by
  cases x with
  | error e =>
    obtain ⟨p, first, culprit⟩ := hx.error e rfl
    apply of_error first culprit
  | ok a => apply of_ok (hx.ok a rfl)

/-- The members of a list, which are counted from `i`, are read one after the other when the places
in them are ordered as they are. -/
theorem cons {V : Nat → α → Place → Prop} {n : List Nat}
    (liesIn : ∀ k a p, V k a p → p.LiesIn n k) {i : Nat} {a : α} {as : List α}
    {x : Except Error β} {f : β → Except Error γ} (hx : Reports x (V i a))
    (hf : ∀ b, Reports (f b) (Along (fun k => V (i + 1 + k)) as)) :
  Reports (x >>= f) (Along (fun k => V (i + k)) (a :: as))
  := by
  apply Reports.congr
  · apply hx.bind fun b _ => hf b
    rintro p q hp ⟨k, b, -, hq⟩
    apply (liesIn i a p hp).rank_lt (liesIn (i + 1 + k) b q hq)
    omega
  · intro p
    constructor
    · rintro (h | ⟨k, b, hb, h⟩)
      · exact ⟨0, a, rfl, h⟩
      · refine ⟨k + 1, b, hb, ?_⟩
        rwa [Nat.add_assoc, Nat.add_comm 1] at h
    · rintro ⟨k | k, b, hb, h⟩
      · cases hb
        exact .inl h
      · refine .inr ⟨k, b, hb, ?_⟩
        change V (i + 1 + k) b p
        rwa [Nat.add_assoc, Nat.add_comm 1]

end Reports

/-- The reader reports violations, all of which are in phase `n` or later. -/
structure ReportsFrom (n : Nat) (x : Except Error α) (V : Place → Prop) : Prop where
  reports : Reports x V
  phase : ∀ p, V p → n ≤ p.phase

theorem ReportsFrom.congr {n : Nat} {x : Except Error α} (h : ReportsFrom n x V)
    (hiff : ∀ p, V p ↔ W p) :
  ReportsFrom n x W
  := by
  obtain rfl : V = W := funext fun p => propext (hiff p)
  exact h

/-- A reader for phase `n` comes before those for later phases. -/
theorem ReportsFrom.bind {n : Nat} {x : Except Error α} {f : α → Except Error β}
    (a : α) (hx : Reports x V) (phase : ∀ p, V p → p.phase = n)
    (hf : ∀ a, ReportsFrom (n + 1) (f a) W) :
  ReportsFrom n (x >>= f) fun p => V p ∨ W p
  := by
  have later : ∀ p, W p → n + 1 ≤ p.phase := (hf a).phase
  constructor
  · apply hx.bind fun b _ => (hf b).reports
    intro p q hp hq
    apply p.liesIn_phase.rank_lt q.liesIn_phase
    rw [phase p hp]
    apply later q hq
  · rintro p (hp | hp)
    · apply (phase p hp).ge
    · apply (Nat.lt_of_succ_le (later p hp)).le

/-- A reader that does nothing reports nothing, in whatever phase. -/
theorem ReportsFrom.pure (n : Nat) (a : α) :
  ReportsFrom n (pure a) fun _ => False
  := by
  constructor
  · apply Reports.of_ok
    exact fun _ h => h
  · rintro _ ⟨⟩

end Shortlist
