import Mathlib.Algebra.Group.Nat.Even
import Shortlist.Proofs.Text.Plain

/-!
# Quoted text

A statement quotes strings with single quotes and names with double quotes; inside quoted text the
quote that is written twice stands for itself.  A text closes when a reader that begins outside
quoted text ends outside of it.  Behind a text that closes everything is read as if it stood
alone, and behind any other text it is read as quoted until the quote comes that was opened.
-/

namespace Shortlist.Text

/-- What quotes a string, and what quotes a name. -/
inductive Quote where
  | single
  | double
  deriving DecidableEq

/-- The character that is written for a quote. -/
def Quote.char : Quote → Char
  | .single => '\x27'
  | .double => '\x22'

/-- The quote a character is. -/
def quote? (c : Char) : Option Quote :=
  if c = Quote.single.char then some .single
  else if c = Quote.double.char then some .double
  else none

/-- Where a reader is.  After a quote inside quoted text that text goes on with the same quote and
has ended with anything else. -/
inductive Reading where
  | outside
  | inside (q : Quote)
  | closing (q : Quote)
  deriving DecidableEq

namespace Reading

/-- What a character outside quoted text makes of it. -/
def start (c : Char) : Reading :=
  (quote? c).elim .outside .inside

/-- Where the reader is after a character. -/
def next : Reading → Char → Reading
  | .outside, c => start c
  | .inside q, c => if c = q.char then .closing q else .inside q
  | .closing q, c => if c = q.char then .inside q else start c

/-- Where the reader is after a text. -/
def after (r : Reading) (cs : List Char) : Reading :=
  cs.foldl next r

/-- The quote of the text the reader is in. -/
def open? : Reading → Option Quote
  | .inside q => some q
  | _ => none

end Reading

/-- A text after which a reader is outside quoted text when it has begun outside. -/
def Closes (cs : List Char) : Prop :=
  (Reading.outside.after cs).open? = none

instance (cs : List Char) : Decidable (Closes cs) :=
  inferInstanceAs (Decidable (_ = _))

theorem quote?_eq_some_iff {c : Char} {q : Quote} :
  quote? c = some q ↔ c = q.char
  := by
  rw [quote?]
  cases q <;> split_ifs <;> simp_all [Quote.char]

theorem quote?_eq_none_of_isHarmless {c : Char} (h : isHarmless c = true) :
  quote? c = none
  := by
  rw [Option.eq_none_iff_forall_ne_some]
  intro q hq
  rw [quote?_eq_some_iff] at hq
  subst hq
  revert h
  cases q <;> decide

namespace Reading

variable {r : Reading} {q : Quote} {c : Char}

theorem after_append (r : Reading) (cs ds : List Char) :
  r.after (cs ++ ds) = (r.after cs).after ds
  := List.foldl_append ..

theorem start_char (q : Quote) :
  start q.char = .inside q
  := by rw [start, quote?_eq_some_iff.mpr rfl, Option.elim_some]

/-- A reader that is in no quoted text does the same whether it has just left one or not. -/
theorem next_of_open?_eq_none (h : r.open? = none) (c : Char) :
  r.next c = start c
  := by
  cases r with
  | outside => rfl
  | inside q => cases h
  | closing q =>
    rw [next]
    split
    next hc => rw [hc, start_char]
    next => rfl

theorem open?_after_of_open?_eq_none (h : r.open? = none) (cs : List Char) :
  (r.after cs).open? = (outside.after cs).open?
  := by
  cases cs with
  | nil => exact h
  | cons c cs =>
    have hnext : r.next c = outside.next c := next_of_open?_eq_none h c
    rw [after, List.foldl_cons, hnext]
    rfl

/-- Quoted text goes on as long as its quote does not come. -/
theorem after_inside {cs : List Char} (h : q.char ∉ cs) :
  (inside q).after cs = inside q
  := by
  induction cs with
  | nil => rfl
  | cons c cs ih =>
    obtain ⟨hc, hcs⟩ := List.ne_and_not_mem_of_not_mem_cons h
    rw [after, List.foldl_cons, next, if_neg (Ne.symm hc)]
    apply ih hcs

/-- The reader has been in no quoted text but one of the given kind. -/
inductive IsOf (q : Quote) : Reading → Prop
  | outside : IsOf q .outside
  | inside : IsOf q (.inside q)
  | closing : IsOf q (.closing q)

/-- A quote takes the reader into quoted text or out of it, and no other character does. -/
theorem IsOf.next (h : r.IsOf q) (hc : quote? c = none ∨ quote? c = some q) :
  (r.next c).IsOf q ∧ ((r.next c).open? = none ↔ (r.open? = none ↔ c ≠ q.char))
  := by
  rcases hc with hc | hc
  · have hne : c ≠ q.char := by
      rw [ne_eq, ← quote?_eq_some_iff, hc]
      simp
    cases h with
    | outside =>
      rw [Reading.next, start, hc]
      exact ⟨.outside, by simp [hne]⟩
    | inside =>
      rw [Reading.next, if_neg hne]
      exact ⟨.inside, by simp [hne]⟩
    | closing =>
      rw [Reading.next, if_neg hne, start, hc]
      exact ⟨.outside, by simp [hne, open?]⟩
  · obtain rfl := quote?_eq_some_iff.mp hc
    cases h with
    | outside =>
      rw [Reading.next, start_char]
      exact ⟨.inside, by simp [open?]⟩
    | inside =>
      rw [Reading.next, if_pos rfl]
      exact ⟨.closing, by simp [open?]⟩
    | closing =>
      rw [Reading.next, if_pos rfl]
      exact ⟨.inside, by simp [open?]⟩

theorem IsOf.open?_after_eq_none_iff (h : r.IsOf q) {cs : List Char}
    (hcs : ∀ c ∈ cs, quote? c = none ∨ quote? c = some q) :
  (r.after cs).open? = none ↔ (r.open? = none ↔ Even (cs.count q.char))
  := by
  induction cs generalizing r with
  | nil => simp [after]
  | cons c cs ih =>
    obtain ⟨hc, hcs⟩ := List.forall_mem_cons.mp hcs
    obtain ⟨hnext, hopen⟩ := h.next hc
    rw [after, List.foldl_cons, ← after, ih hnext hcs, hopen]
    by_cases hq : c = q.char
    · rw [hq, List.count_cons_self, Nat.even_add_one]
      tauto
    · rw [List.count_cons_of_ne hq]
      tauto

end Reading

/-! ### Texts that close -/

variable {cs ds : List Char}

theorem closes_nil :
  Closes []
  := rfl

/-- Behind a text that closes every text closes as it does alone. -/
theorem Closes.append_iff (h : Closes cs) (ds : List Char) :
  Closes (cs ++ ds) ↔ Closes ds
  := by rw [Closes, Reading.after_append, Reading.open?_after_of_open?_eq_none h, Closes]

theorem Closes.append (h : Closes cs) (h' : Closes ds) :
  Closes (cs ++ ds)
  := (h.append_iff ds).mpr h'

/-- A text closes exactly when what follows it is read, at every place, as it is alone. -/
theorem Closes.closes_iff_forall_prefix (h : Closes cs) (ds rest : List Char) :
  Closes ds ↔ ∀ part, part <+: rest → (Closes (cs ++ ds ++ part) ↔ Closes part)
  := by
  constructor
  · intro hds part _
    apply (h.append hds).append_iff
  · intro hread
    have hclosed := (hread [] List.nil_prefix).mpr closes_nil
    rwa [List.append_nil, h.append_iff] at hclosed

theorem closes_join {texts : List String} (h : ∀ s ∈ texts, Closes s.toList) :
  Closes (String.join texts).toList
  := by
  rw [String.toList_join]
  induction texts with
  | nil => apply closes_nil
  | cons s texts ih =>
    obtain ⟨hs, htexts⟩ := List.forall_mem_cons.mp h
    apply hs.append (ih htexts)

/-- A text does not close when it leaves a quote open, up to the place where this quote comes. -/
theorem exists_quote_of_not_closes (h : ¬ Closes cs) :
  ∃ q : Quote, ∀ part, q.char ∉ part → ¬ Closes (cs ++ part)
  := by
  obtain ⟨q, hq⟩ := Option.ne_none_iff_exists'.mp h
  have hinside : Reading.outside.after cs = .inside q := by
    generalize Reading.outside.after cs = r at hq
    cases r with
    | inside q' =>
      cases hq
      rfl
    | _ => cases hq
  use q
  intro part hpart
  rw [Closes, Reading.after_append, hinside, Reading.after_inside hpart]
  simp [Reading.open?]

/-- Where all quotes are of one kind, the text closes when their number is even. -/
theorem closes_iff_even_count {q : Quote} (h : ∀ c ∈ cs, quote? c = none ∨ quote? c = some q) :
  Closes cs ↔ Even (cs.count q.char)
  := by
  rw [Closes, Reading.IsOf.outside.open?_after_eq_none_iff h]
  apply iff_true_left rfl

/-- One quote more opens a text that closes. -/
theorem Closes.not_closes_concat (h : Closes cs) (q : Quote) :
  ¬ Closes (cs ++ [q.char])
  := by
  rw [h.append_iff]
  cases q <;> decide

/-! ### Guarded texts -/

/-- Inside a string every quote that is written twice leaves the reader there. -/
theorem Reading.after_double (cs : List Char) :
  (inside .single).after (Text.double cs) = inside .single
  := by
  induction cs with
  | nil => rfl
  | cons c cs ih =>
    by_cases hc : c = quoteChar
    · rw [Text.double, if_pos hc, hc]
      exact ih
    · have hnext : (inside .single).next c = inside .single := if_neg hc
      rw [Text.double, if_neg hc, after, List.foldl_cons, hnext]
      exact ih

theorem closes_quote (s : String) :
  Closes (quote s).toList
  := by
  have hinside : Reading.outside.after [quoteChar] = .inside .single := by decide
  rw [Closes, quote, String.toList_ofList, ← List.singleton_append, Reading.after_append, hinside,
    Reading.after_append, Reading.after_double]
  decide

theorem closes_singleton {c : Char} (h : isHarmless c = true) :
  Closes [c]
  := by
  rw [Closes, Reading.after, List.foldl_cons, Reading.next, Reading.start,
    quote?_eq_none_of_isHarmless h]
  rfl

/-- In a guarded text every string that is opened is closed. -/
theorem Guarded.closes {ss : List String} (h : Guarded cs ss) :
  Closes cs
  := by
  induction h with
  | nil => apply closes_nil
  | char harmless _ ih => apply (closes_singleton harmless).append ih
  | @minus d _ _ digit _ ih =>
    have hminus : Closes ['-'] := by decide
    have hdigit := closes_singleton (isHarmless_of_isDigit digit)
    apply hminus.append (hdigit.append ih)
  | @string c s _ _ harmless _ ih =>
    apply (closes_singleton harmless).append ((closes_quote s).append ih)

theorem closes_of_isPlain {s : String} (h : isPlain s = true) :
  Closes s.toList
  := (Guarded.of_isPlain h).closes

end Shortlist.Text
