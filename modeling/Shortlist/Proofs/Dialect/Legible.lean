import Shortlist.Proofs.Dialect.Literal
import Shortlist.Proofs.Text.Forced

/-!
# Legible literals

A literal shows by its first character what kind of value it stands for, and by its characters
where it ends, unless a digit or a quote follows.  Only doubles, which have names in quotes,
and truth values in a dialect that writes them as digits are not told apart from other values.
-/

namespace Shortlist

open Text

/-! ### Numbers and strings -/

namespace Number

/-- A natural number is read off its digits. -/
theorem forces_digits (n m : Nat) :
  Forces (Stops Char.isDigit) (digits n) (digits m) (n = m)
  := by
  apply (Forces.run isDigit_of_mem_toDigits isDigit_of_mem_toDigits).imp
  intro h
  rw [← Nat.ofDigitChars_toDigits (b := 10) (n := n) (by decide) (by decide), h,
    Nat.ofDigitChars_toDigits (by decide) (by decide)]

theorem forces_natText (n m : Nat) :
  Forces (Stops Char.isDigit) (natText n).toList (natText m).toList (n = m)
  := by
  rw [natText, natText, String.toList_ofList, String.toList_ofList]
  apply forces_digits

/-- A minus sign is not among the digits. -/
theorem minus_append_ne_digits (n : Nat) (r s : List Char) :
  '-' :: r ≠ digits n ++ s
  := by
  obtain ⟨d, ds, hds, hd, -⟩ := isMagnitude_digits n
  rw [hds]
  intro h
  obtain rfl := (List.cons.inj h).1
  revert hd
  decide

/-- An integer is read off its digits and its sign. -/
theorem forces_intText (n m : Int) :
  Forces (Stops Char.isDigit) (intText n).toList (intText m).toList (n = m)
  := by
  rw [intText, intText, String.toList_ofList, String.toList_ofList]
  cases n with
  | ofNat n =>
    cases m with
    | ofNat m => apply (forces_digits n m).imp (congrArg _)
    | negSucc m =>
      intro r s _ _ h
      cases minus_append_ne_digits n _ _ h.symm
  | negSucc n =>
    cases m with
    | ofNat m =>
      intro r s _ _ h
      cases minus_append_ne_digits m _ _ h
    | negSucc m =>
      apply ((forces_digits (n + 1) (m + 1)).behind ['-']).imp
      intro h
      rw [Nat.succ.inj h]

end Number

namespace Text

/-- A character that is written shows which one it is, alone or doubled. -/
theorem double_cons_append_inj {c d : Char} {cs ds r s : List Char}
    (h : double (c :: cs) ++ r = double (d :: ds) ++ s) :
  c = d ∧ double cs ++ r = double ds ++ s
  := by
  rw [double, double] at h
  split at h <;> split at h
  case isTrue.isTrue hc hd =>
    simp only [List.cons_append, List.cons.injEq] at h
    exact ⟨hc.trans hd.symm, h.2.2⟩
  case isTrue.isFalse hc hd => cases hd ((List.cons.inj h).1.symm.trans hc)
  case isFalse.isTrue hc hd => cases hc ((List.cons.inj h).1.trans hd)
  case isFalse.isFalse => exact List.cons.inj h

/-- A quote that is followed by no other is not written for a character. -/
theorem quoteChar_cons_ne_double {d : Char} {ds r : List Char} (hr : Stops (· == quoteChar) r)
    (s : List Char) :
  quoteChar :: r ≠ double (d :: ds) ++ s
  := by
  rw [double]
  intro h
  split at h
  next hd =>
    obtain ⟨-, rfl⟩ := List.cons.inj h
    rw [hd] at hr
    cases hr
  next hd => cases hd (List.cons.inj h).1.symm

/-- A quote that is followed by no other ends a text with doubled quotes. -/
theorem forces_double (cs ds : List Char) :
  Forces (Stops (· == quoteChar)) (double cs ++ [quoteChar]) (double ds ++ [quoteChar]) (cs = ds)
  := by
  intro r s hr hs h
  rw [List.append_assoc, List.append_assoc] at h
  induction cs generalizing ds with
  | nil =>
    cases ds with
    | nil => exact ⟨rfl, (List.cons.inj h).2⟩
    | cons d ds => cases quoteChar_cons_ne_double hr _ h
  | cons c cs ih =>
    cases ds with
    | nil => cases quoteChar_cons_ne_double hs _ h.symm
    | cons d ds =>
      obtain ⟨rfl, htail⟩ := double_cons_append_inj h
      obtain ⟨rfl, hrest⟩ := ih ds htail
      exact ⟨rfl, hrest⟩

/-- A string is read off its quoted text, up to a quote that is not doubled. -/
theorem forces_quote (s t : String) :
  Forces (Stops (· == quoteChar)) (quote s).toList (quote t).toList (s = t)
  := by
  rw [quote, quote, String.toList_ofList, String.toList_ofList]
  apply ((forces_double s.toList t.toList).behind [quoteChar]).imp
  apply String.toList_inj.mp

end Text

/-! ### Values -/

namespace Value

mutual

/-- Whether a value and all values in it have a property. -/
def everywhere (p : Value → Bool) : Value → Bool
  | .array vs => p (.array vs) && everywhereIn p vs
  | v => p v

/-- Whether the values of an array and all values in them have a property. -/
def everywhereIn (p : Value → Bool) : List Value → Bool
  | [] => true
  | v :: vs => everywhere p v && everywhereIn p vs

end

theorem everywhereIn_iff (p : Value → Bool) (vs : List Value) :
  everywhereIn p vs = true ↔ ∀ v ∈ vs, v.everywhere p = true
  := by
  induction vs with
  | nil => simp [everywhereIn]
  | cons v vs ih => rw [everywhereIn, Bool.and_eq_true, ih, List.forall_mem_cons]

/-- Whether the value is a double. -/
def isFloat : Value → Bool
  | .float _ => true
  | _ => false

/-- Whether there is no double in a value, at any depth. -/
def isFloatFree (v : Value) : Bool := v.everywhere (!·.isFloat)

/-- Whether the literal of a value tells it apart from values of other kinds. -/
def isTold (d : Dialect) : Value → Bool
  | .float _ => false
  | .bool _ => d = .postgres
  | _ => true

/-- Whether the literals of a value and of all values in it tell them apart from values of other
kinds. -/
def isLegible (d : Dialect) (v : Value) : Bool := v.everywhere (isTold d)

/-- Where truth values have names, the values without doubles are legible. -/
theorem isLegible_postgres (v : Value) :
  v.isLegible .postgres = v.isFloatFree
  := by
  have h : isTold .postgres = (!·.isFloat) := by
    funext v
    cases v <;> rfl
  rw [isLegible, isFloatFree, h]

/-- A legible value is told apart from values of other kinds. -/
theorem isTold_of_isLegible {d : Dialect} {v : Value} (h : v.isLegible d = true) :
  v.isTold d = true
  := by
  cases v with
  | array vs =>
    rw [isLegible, everywhere, Bool.and_eq_true] at h
    exact h.1
  | _ => exact h

theorem isLegible_array_iff (d : Dialect) (vs : List Value) :
  (array vs).isLegible d = true ↔ ∀ v ∈ vs, v.isLegible d = true
  := by
  rw [isLegible, everywhere, Bool.and_eq_true, everywhereIn_iff]
  exact ⟨And.right, fun h => ⟨rfl, h⟩⟩

/-- The character that stands for the first characters of literals of one kind. -/
def mark : Value → Char
  | .null => 'N'
  | .bool _ => 'T'
  | .int _ => '0'
  | .float _ => '.'
  | .string _ => quoteChar
  | .array _ => '('

end Value

namespace Dialect

/-- The mark of the kind of literals that begin with a character. -/
def markOf (c : Char) : Char :=
  if c.isDigit || c == '-' then '0' else if c == 'F' then 'T' else c

theorem markOf_head?_intText (n : Int) :
  (Number.intText n).toList.head?.map markOf = some '0'
  := by
  rw [Number.intText, String.toList_ofList]
  cases n with
  | ofNat n =>
    obtain ⟨c, cs, hdigits, hc, -⟩ := Number.isMagnitude_digits n
    rw [Number.signed, hdigits, List.head?_cons, Option.map_some, markOf, hc]
    rfl
  | negSucc n => rfl

/-- The first character of a literal shows the kind of the value. -/
theorem markOf_head?_literal {d : Dialect} {v : Value} (h : v.isTold d = true) :
  (d.literal v).toList.head?.map markOf = some v.mark
  := by
  cases v with
  | null =>
    rw [literal]
    rfl
  | bool b =>
    obtain rfl : d = .postgres := of_decide_eq_true h
    rw [literal]
    cases b <;> rfl
  | int n => rw [literal, markOf_head?_intText, Value.mark]
  | float x => cases h
  | string s =>
    rw [literal, quote, String.toList_ofList]
    rfl
  | array vs =>
    rw [literal, String.toList_append, String.toList_append]
    rfl

/-- The first character shows the kind of the value also when something follows the literal. -/
theorem markOf_head?_literal_append {d : Dialect} {v : Value} (h : v.isTold d = true)
    (r : List Char) :
  ((d.literal v).toList ++ r).head?.map markOf = some v.mark
  := by
  have hhead := markOf_head?_literal h
  cases hcs : (d.literal v).toList with
  | nil => simp [hcs] at hhead
  | cons c cs => rwa [hcs] at hhead

/-- Literals at the start of the same text are of values of one kind. -/
theorem mark_eq_of_literal_append_eq {d : Dialect} {v w : Value} (hv : v.isTold d = true)
    (hw : w.isTold d = true) {r s : List Char}
    (h : (d.literal v).toList ++ r = (d.literal w).toList ++ s) :
  v.mark = w.mark
  := by
  apply Option.some.inj
  rw [← markOf_head?_literal_append hv r, h, markOf_head?_literal_append hw s]

/-- Values of different kinds do not have literals that are the same up to what follows. -/
theorem forces_of_mark_ne {d : Dialect} {v w : Value} (hv : v.isLegible d = true)
    (hw : w.isLegible d = true) (hne : v.mark ≠ w.mark) (May : List Char → Prop) :
  Forces May (d.literal v).toList (d.literal w).toList (v = w)
  := by
  intro r s _ _ h
  cases hne (mark_eq_of_literal_append_eq (Value.isTold_of_isLegible hv)
    (Value.isTold_of_isLegible hw) h)

/-- No literal begins with a closing parenthesis. -/
theorem not_literal_begin {d : Dialect} {v : Value} (hv : v.isTold d = true) {r : List Char}
    (hr : [')'] <+: r) :
  ¬ (d.literal v).toList <+: r
  := by
  rintro ⟨s, rfl⟩
  obtain ⟨t, ht⟩ := hr
  have hmark := markOf_head?_literal_append hv s
  rw [← ht] at hmark
  cases v <;> cases hmark

/-- What goes on with a number, or makes one string of two. -/
def goesOn (c : Char) : Bool := c.isDigit || c == quoteChar

/-- A truth value is read off its name. -/
theorem forces_truth (b c : Bool) :
  Forces (Stops goesOn) (truth .postgres b).toList (truth .postgres c).toList (b = c)
  := by
  apply Forces.told fun b => (truth .postgres b).toList
  cases b <;> cases c <;> decide

/-- Lists of values up to a closing parenthesis are told apart when the values are. -/
theorem forces_items {d : Dialect} {vs ws : List Value} (hvs : ∀ v ∈ vs, v.isTold d = true)
    (hws : ∀ w ∈ ws, w.isTold d = true)
    (members : ∀ v ∈ vs, ∀ w ∈ ws,
      Forces (Stops goesOn) (d.literal v).toList (d.literal w).toList (v = w))
    (May : List Char → Prop) :
  Forces May (", ".toList.intercalate ((vs.map d.literal).map String.toList) ++ [')'])
    (", ".toList.intercalate ((ws.map d.literal).map String.toList) ++ [')']) (vs = ws)
  := by
  have hlast (r : List Char) (hr : [')'] <+: r) : Stops goesOn r := by
    apply Stops.of_begin _ _ hr <;> decide
  have hstop (r : List Char) (hr : [')'] <+: r) : ¬ ", ".toList <+: r := by
    rintro ⟨s, rfl⟩
    obtain ⟨t, ht⟩ := hr
    cases ht
  have hforces := Forces.intercalate_or_nil members (fun r => by rfl) hlast hstop
    (fun v hv r hr => not_literal_begin (hvs v hv) hr)
    (fun w hw r hr => not_literal_begin (hws w hw) hr)
  rw [List.map_map, List.map_map]
  apply (hforces.before [')'] (fun r => List.prefix_append _ r)).imp
  rw [List.forall₂_eq_eq_eq]
  exact id

mutual

/-- Literals that tell values of different kinds apart tell all values apart. -/
theorem forces_literal (d : Dialect) :
  (v : Value) → v.isLegible d = true → (w : Value) → w.isLegible d = true →
    Forces (Stops goesOn) (d.literal v).toList (d.literal w).toList (v = w)
  | .null, hv, w, hw => by
    cases w with
    | null => apply Forces.same _ _ rfl
    | _ => apply forces_of_mark_ne hv hw (by rintro ⟨⟩)
  | .bool b, hv, w, hw => by
    cases w with
    | bool c =>
      obtain rfl : d = .postgres := of_decide_eq_true hv
      rw [literal, literal]
      apply (forces_truth b c).imp (congrArg _)
    | _ => apply forces_of_mark_ne hv hw (by rintro ⟨⟩)
  | .int n, hv, w, hw => by
    cases w with
    | int m =>
      rw [literal, literal]
      apply ((Number.forces_intText n.toInt m.toInt).mono _).imp
      · intro h
        rw [Int64.toInt_inj.mp h]
      · intro r hr
        apply hr.of_imp
        intro c hc
        rw [goesOn, hc, Bool.true_or]
    | _ => apply forces_of_mark_ne hv hw (by rintro ⟨⟩)
  | .float x, hv, w, hw => by cases hv
  | .string s, hv, w, hw => by
    cases w with
    | string t =>
      rw [literal, literal]
      apply ((forces_quote s t).mono _).imp (congrArg _)
      intro r hr
      apply hr.of_imp
      intro c hc
      rw [goesOn, hc, Bool.or_true]
    | _ => apply forces_of_mark_ne hv hw (by rintro ⟨⟩)
  | .array vs, hv, w, hw => by
    cases w with
    | array ws =>
      rw [Value.isLegible_array_iff] at hv hw
      have hitems := forces_items (fun v h => Value.isTold_of_isLegible (hv v h))
        (fun w h => Value.isTold_of_isLegible (hw w h))
        (fun v h w h' => forces_literals d vs hv v h w (hw w h')) (Stops goesOn)
      rw [literal, literal, literals_eq_map, literals_eq_map, String.toList_append,
        String.toList_append, String.toList_append, String.toList_append,
        String.toList_intercalate, String.toList_intercalate, List.append_assoc, List.append_assoc]
      apply (hitems.behind "(".toList).imp (congrArg _)
    | _ => apply forces_of_mark_ne hv hw (by rintro ⟨⟩)

theorem forces_literals (d : Dialect) :
  (vs : List Value) → (∀ v ∈ vs, v.isLegible d = true) →
    ∀ v ∈ vs, ∀ w : Value, w.isLegible d = true →
      Forces (Stops goesOn) (d.literal v).toList (d.literal w).toList (v = w)
  | [], _ => by simp
  | v :: vs, hvs => by
    rw [List.forall_mem_cons] at hvs ⊢
    exact ⟨forces_literal d v hvs.1, forces_literals d vs hvs.2⟩

end

end Dialect

end Shortlist
