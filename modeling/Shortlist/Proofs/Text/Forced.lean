import Mathlib.Data.List.Forall2

/-!
# Texts that are read in one way

A text that is put together from parts can be taken apart again when every part shows where it
ends.  `Forces` says it of two parts: where both are followed by something that may follow, the
same text is made only of parts that mean the same, and the same follows.  Parts that are forced
one by one are forced in a row, in a list with separators, and in a list that may be left out.
-/

namespace Shortlist.Text

/-- Whenever the two texts are the same up to what follows, the claim holds and the same
follows, as long as what follows may follow. -/
def Forces (F : List Char → Prop) (w v : List Char) (claim : Prop) : Prop :=
  ∀ r s, F r → F s → w ++ r = v ++ s → claim ∧ r = s

/-- Neither of two texts begins with the other. -/
def Clash (w v : List Char) : Prop :=
  ¬ w <+: v ∧ ¬ v <+: w

instance (w v : List Char) : Decidable (Clash w v) :=
  inferInstanceAs (Decidable (_ ∧ _))

/-- The text is empty or begins with a character without the property. -/
def Stops (p : Char → Bool) (r : List Char) : Prop :=
  r.head?.any p = false

instance (p : Char → Bool) (r : List Char) : Decidable (Stops p r) :=
  inferInstanceAs (Decidable (_ = _))

/-- The text is empty or begins with one of the keywords. -/
def Begins (keywords : List String) (r : List Char) : Prop :=
  r = [] ∨ ∃ k ∈ keywords, k.toList <+: r

/-- A keyword and items with a separator between them; nothing when there are no items. -/
def listed (keyword separator : String) (items : List (List Char)) : List Char :=
  if items.isEmpty then [] else keyword.toList ++ separator.toList.intercalate items

/-! ### What may follow -/

section Follow

variable {p : Char → Bool} {w v r : List Char} {keywords : List String} {k : String}

theorem stops_nil (p : Char → Bool) :
  Stops p []
  := rfl

/-- A text that is not empty stops a property whatever follows it. -/
theorem Stops.append (h : Stops p w) (hne : w ≠ []) (r : List Char) :
  Stops p (w ++ r)
  := by
  obtain ⟨c, w, rfl⟩ := List.exists_cons_of_ne_nil hne
  exact h

theorem Stops.of_begin (h : Stops p w) (hne : w ≠ []) (hbegin : w <+: r) :
  Stops p r
  := by
  obtain ⟨s, rfl⟩ := hbegin
  apply h.append hne

/-- A text that stops a property stops every narrower one. -/
theorem Stops.of_imp {q : Char → Bool} (h : Stops p r) (imp : ∀ c, q c = true → p c = true) :
  Stops q r
  := by
  cases r with
  | nil => rfl
  | cons c r =>
    apply Bool.eq_false_iff.mpr
    intro hc
    apply Bool.eq_false_iff.mp h (imp c hc)

/-- Texts that clash are not made the same by what follows. -/
theorem Clash.append_ne (h : Clash w v) (r s : List Char) :
  w ++ r ≠ v ++ s
  := by
  intro heq
  have hw : w <+: v ++ s := heq ▸ List.prefix_append w r
  rcases List.prefix_or_prefix_of_prefix hw (List.prefix_append v s) with hbegin | hbegin
  · exact h.1 hbegin
  · exact h.2 hbegin

theorem begins_nil (keywords : List String) :
  Begins keywords []
  := .inl rfl

/-- A list that may be left out begins with its keyword, or what follows it begins. -/
theorem Begins.listed (h : Begins keywords r) (k separator : String) (items : List (List Char)) :
  Begins (k :: keywords) (listed k separator items ++ r)
  := by
  rw [Text.listed]
  split
  · apply h.imp_right
    rintro ⟨k', hk', hbegin⟩
    use k', List.mem_cons_of_mem k hk'
    exact hbegin
  · right
    use k, List.mem_cons_self ..
    rw [List.append_assoc]
    apply List.prefix_append

/-- A text that begins with one of some keywords stops where all of them do. -/
theorem Begins.stops (h : Begins keywords r)
    (hkeywords : ∀ k ∈ keywords, k.toList ≠ [] ∧ Stops p k.toList) :
  Stops p r
  := by
  rcases h with rfl | ⟨k, hk, hbegin⟩
  · apply stops_nil
  · obtain ⟨hne, hstops⟩ := hkeywords k hk
    apply hstops.of_begin hne hbegin

theorem Begins.not_begin (h : Begins keywords r) (hne : k.toList ≠ [])
    (hclash : ∀ k' ∈ keywords, Clash k.toList k'.toList) :
  ¬ k.toList <+: r
  := by
  rintro ⟨t, ht⟩
  rcases h with rfl | ⟨k', hk', t', ht'⟩
  · apply hne (List.append_eq_nil_iff.mp ht).1
  · apply (hclash k' hk').append_ne t t' (ht.trans ht'.symm)

end Follow

/-! ### Parts in a row -/

namespace Forces

variable {F F' : List Char → Prop} {w v w' v' : List Char} {claim claim' : Prop}

/-- A text forces what holds anyway. -/
theorem same (F : List Char → Prop) (w : List Char) {claim : Prop} (h : claim) :
  Forces F w w claim
  := by
  intro r s _ _ heq
  exact ⟨h, List.append_cancel_left heq⟩

/-- Texts neither of which begins the other are never the same up to what follows. -/
theorem of_clash (h : Clash w v) :
  Forces F w v claim
  := by
  intro r s _ _ heq
  cases h.append_ne r s heq

/-- Texts that clash whenever they stand for different things show what they stand for. -/
theorem told {α : Type} (f : α → List Char) {a b : α} (h : a ≠ b → Clash (f a) (f b)) :
  Forces F (f a) (f b) (a = b)
  := by
  by_cases hab : a = b
  · subst hab
    apply same F _ rfl
  · apply of_clash (h hab)

theorem imp (h : Forces F w v claim) (imp : claim → claim') :
  Forces F w v claim'
  := by
  intro r s hr hs heq
  apply And.imp_left imp (h r s hr hs heq)

/-- Less may follow. -/
theorem mono (h : Forces F w v claim) (sub : ∀ r, F' r → F r) :
  Forces F' w v claim
  := by
  intro r s hr hs heq
  apply h r s (sub r hr) (sub s hs) heq

/-- Two parts in a row are forced when the second of them may follow the first. -/
theorem append (h : Forces F w v claim) (h' : Forces F' w' v' claim')
    (hw : ∀ r, F' r → F (w' ++ r)) (hv : ∀ r, F' r → F (v' ++ r)) :
  Forces F' (w ++ w') (v ++ v') (claim ∧ claim')
  := by
  intro r s hr hs heq
  rw [List.append_assoc, List.append_assoc] at heq
  obtain ⟨hclaim, heq'⟩ := h _ _ (hw r hr) (hv s hs) heq
  obtain ⟨hclaim', hrest⟩ := h' r s hr hs heq'
  exact ⟨⟨hclaim, hclaim'⟩, hrest⟩

/-- The same text in front changes nothing. -/
theorem behind (k : List Char) (h : Forces F w v claim) :
  Forces F (k ++ w) (k ++ v) claim
  := ((same (fun _ => True) k trivial).append h (fun _ _ => trivial) (fun _ _ => trivial)).imp
    And.right

/-- A text behind both parts that may follow them. -/
theorem before (h : Forces F w v claim) (k : List Char) (hk : ∀ r, F (k ++ r)) :
  Forces F' (w ++ k) (v ++ k) claim
  := (h.append (same F' k trivial) (fun r _ => hk r) (fun r _ => hk r)).imp And.left

/-- A run of characters ends before the first character that is not one of them. -/
theorem run {p : Char → Bool} (hw : ∀ c ∈ w, p c = true) (hv : ∀ c ∈ v, p c = true) :
  Forces (Stops p) w v (w = v)
  := by
  have htake {u r : List Char} (hu : ∀ c ∈ u, p c = true) (hr : Stops p r) :
      (u ++ r).takeWhile p = u := by
    rw [List.takeWhile_append_of_pos hu]
    cases r with
    | nil => simp
    | cons c r =>
      rw [List.takeWhile_cons_of_neg, List.append_nil]
      rw [show p c = false from hr]
      decide
  intro r s hr hs heq
  obtain rfl : w = v := by rw [← htake hw hr, heq, htake hv hs]
  exact ⟨rfl, List.append_cancel_left heq⟩

end Forces

/-! ### Lists -/

namespace Forces

variable {α β : Type} {f : α → List Char} {g : β → List Char} {R : α → β → Prop}
  {F E : List Char → Prop} {separator : List Char} {as : List α} {bs : List β}

/-- The members of a list are forced when a separator may follow each of them and none of them
is followed by the separator at the end. -/
theorem intercalate (members : ∀ a ∈ as, ∀ b ∈ bs, Forces F (f a) (g b) (R a b))
    (more : ∀ r, F (separator ++ r)) (last : ∀ r, E r → F r)
    (stop : ∀ r, E r → ¬ separator <+: r) (has : as ≠ []) (hbs : bs ≠ []) :
  Forces E (separator.intercalate (as.map f)) (separator.intercalate (bs.map g))
    (List.Forall₂ R as bs)
  := by
  induction as generalizing bs with
  | nil => cases has rfl
  | cons a as ih =>
    obtain ⟨b, bs, rfl⟩ := List.exists_cons_of_ne_nil hbs
    have hhead := members a (List.mem_cons_self ..) b (List.mem_cons_self ..)
    intro r s hr hs heq
    -- where one list ends and the other goes on, what stands at the end begins with a separator
    rcases as with - | ⟨a', as⟩ <;> rcases bs with - | ⟨b', bs⟩ <;>
      simp only [List.map_cons, List.map_nil, List.intercalate_singleton,
        List.intercalate_cons_cons, List.append_assoc] at heq
    · obtain ⟨hab, hrest⟩ := hhead r s (last r hr) (last s hs) heq
      exact ⟨.cons hab .nil, hrest⟩
    · obtain ⟨-, hrest⟩ := hhead r _ (last r hr) (more _) heq
      cases stop r hr ⟨_, hrest.symm⟩
    · obtain ⟨-, hrest⟩ := hhead _ s (more _) (last s hs) heq
      cases stop s hs ⟨_, hrest⟩
    · obtain ⟨hab, hrest⟩ := hhead _ _ (more _) (more _) heq
      obtain ⟨htail, hrest⟩ := ih
        (fun a ha b hb => members a (List.mem_cons_of_mem _ ha) b (List.mem_cons_of_mem _ hb))
        (List.cons_ne_nil _ _) (List.cons_ne_nil b' bs) r s hr hs (List.append_cancel_left hrest)
      exact ⟨.cons hab htail, hrest⟩

/-- As `intercalate`, where there may be no members: what stands at the end is not a member. -/
theorem intercalate_or_nil (members : ∀ a ∈ as, ∀ b ∈ bs, Forces F (f a) (g b) (R a b))
    (more : ∀ r, F (separator ++ r)) (last : ∀ r, E r → F r)
    (stop : ∀ r, E r → ¬ separator <+: r) (left : ∀ a ∈ as, ∀ r, E r → ¬ f a <+: r)
    (right : ∀ b ∈ bs, ∀ r, E r → ¬ g b <+: r) :
  Forces E (separator.intercalate (as.map f)) (separator.intercalate (bs.map g))
    (List.Forall₂ R as bs)
  := by
  have hbegin {γ : Type} (h : γ → List Char) (c : γ) (cs : List γ) :
      h c <+: separator.intercalate ((c :: cs).map h) := by
    cases cs with
    | nil => simp
    | cons => simp [List.intercalate_cons_cons]
  rcases as with - | ⟨a, as⟩ <;> rcases bs with - | ⟨b, bs⟩
  · apply same E _ .nil
  · intro r s hr hs heq
    cases right b (List.mem_cons_self ..) r hr
      (((hbegin g b bs).trans (List.prefix_append _ s)).trans (heq ▸ List.prefix_rfl))
  · intro r s hr hs heq
    cases left a (List.mem_cons_self ..) s hs
      (((hbegin f a as).trans (List.prefix_append _ r)).trans (heq ▸ List.prefix_rfl))
  · apply intercalate members more last stop (List.cons_ne_nil _ _) (List.cons_ne_nil _ _)

/-- As `intercalate`, behind a keyword with which nothing begins that stands at the end. -/
theorem listed {keyword separator : String}
    (members : ∀ a ∈ as, ∀ b ∈ bs, Forces F (f a) (g b) (R a b))
    (more : ∀ r, F (separator.toList ++ r)) (last : ∀ r, E r → F r)
    (stop : ∀ r, E r → ¬ separator.toList <+: r)
    (start : ∀ r, E r → ¬ keyword.toList <+: r) :
  Forces E (Text.listed keyword separator (as.map f)) (Text.listed keyword separator (bs.map g))
    (List.Forall₂ R as bs)
  := by
  rw [Text.listed, Text.listed]
  rcases as with - | ⟨a, as⟩ <;> rcases bs with - | ⟨b, bs⟩
  · apply same E _ .nil
  · intro r s hr hs heq
    rw [List.map_cons, List.isEmpty_cons, if_neg Bool.false_ne_true, List.append_assoc] at heq
    cases start r hr ⟨_, heq.symm⟩
  · intro r s hr hs heq
    rw [List.map_cons, List.isEmpty_cons, if_neg Bool.false_ne_true, List.append_assoc] at heq
    cases start s hs ⟨_, heq⟩
  · apply behind
    apply intercalate members more last stop (List.cons_ne_nil _ _) (List.cons_ne_nil _ _)

/-- A single member behind a keyword with which nothing begins that stands at the end. -/
theorem optional {keyword : String} {o o' : Option α}
    (member : ∀ a, o = some a → ∀ b, o' = some b → Forces E (f a) (f b) (a = b))
    (start : ∀ r, E r → ¬ keyword.toList <+: r) :
  Forces E (Text.listed keyword "" (o.toList.map f)) (Text.listed keyword "" (o'.toList.map f))
    (o = o')
  := by
  have hsome (a : α) : Text.listed keyword "" ((some a).toList.map f) = keyword.toList ++ f a := by
    simp [Text.listed]
  cases o with
  | none =>
    cases o' with
    | none => apply same E _ rfl
    | some b =>
      intro r s hr hs heq
      rw [hsome, List.append_assoc] at heq
      cases start r hr ⟨_, heq.symm⟩
  | some a =>
    cases o' with
    | none =>
      intro r s hr hs heq
      rw [hsome, List.append_assoc] at heq
      cases start s hs ⟨_, heq⟩
    | some b =>
      rw [hsome, hsome]
      apply ((member a rfl b rfl).behind keyword.toList).imp (congrArg some)

end Forces

end Shortlist.Text
