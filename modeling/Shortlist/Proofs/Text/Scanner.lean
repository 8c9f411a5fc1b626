import Mathlib.Data.List.Chain
import Shortlist.Text.Quoted
import Shortlist.Text.Word

/-!
# Scanned statements

`scan` reads a statement the way a database does: a single quote opens a string, two quotes in
a row inside it stand for one, and a lone quote closes it.  `Guarded` is a grammar of texts in
which no string can be mistaken: every string is written by `quote` and follows a harmless
character, and every minus sign is followed by a digit.  Guarded texts can be put one after the
other, and a scanner finds in them exactly the strings that were written.
-/

namespace Shortlist.Text

/-- What a scanner finds: a character outside strings, or a string. -/
inductive Token where
  | char (c : Char)
  | string (s : String)

/-- Where a scanner is.  After a quote inside a string the string goes on with another quote or
is closed. -/
inductive ScanState where
  | outside
  | inside (s : List Char)
  | closing (s : List Char)

/-- The tokens of a text.  A text that ends inside a string has none. -/
def scan : ScanState → List Char → Option (List Token)
  | .outside, [] => some []
  | .outside, c :: cs =>
    if c = quoteChar then scan (.inside []) cs else (scan .outside cs).map (.char c :: ·)
  | .inside _, [] => none
  | .inside s, c :: cs =>
    if c = quoteChar then scan (.closing s) cs else scan (.inside (s ++ [c])) cs
  | .closing s, [] => some [.string (String.ofList s)]
  | .closing s, c :: cs =>
    if c = quoteChar then scan (.inside (s ++ [c])) cs
    else (scan .outside cs).map fun ts => .string (String.ofList s) :: .char c :: ts

/-- The characters outside strings. -/
def outsideOf (ts : List Token) : List Char :=
  ts.filterMap fun
    | .char c => some c
    | .string _ => none

/-- The strings, in order. -/
def stringsOf (ts : List Token) : List String :=
  ts.filterMap fun
    | .char _ => none
    | .string s => some s

/-- A character with no meaning of its own: a word character, a space or one of a few marks.
The minus sign is not among them. -/
def isHarmless (c : Char) : Bool :=
  isWordChar c || " .,()*=<>$?".toList.contains c

/-- A text with the given strings, each written by `quote` after a harmless character, and
with a digit after each minus sign. -/
inductive Guarded : List Char → List String → Prop where
  | nil : Guarded [] []
  | char {c : Char} {cs : List Char} {ss : List String} (harmless : isHarmless c = true)
      (rest : Guarded cs ss) : Guarded (c :: cs) ss
  | minus {d : Char} {cs : List Char} {ss : List String} (digit : d.isDigit = true)
      (rest : Guarded cs ss) : Guarded ('-' :: d :: cs) ss
  | string {c : Char} {s : String} {cs : List Char} {ss : List String}
      (harmless : isHarmless c = true) (rest : Guarded cs ss) :
      Guarded (c :: ((quote s).toList ++ cs)) (s :: ss)

/-- A text that is guarded wherever a harmless character comes before it. -/
def GuardedAfter (cs : List Char) (ss : List String) : Prop :=
  ∀ c, isHarmless c = true → Guarded (c :: cs) ss

/-! ### Characters -/

theorem ne_quoteChar_of_isHarmless {c : Char} (h : isHarmless c = true) :
  c ≠ quoteChar
  := by
  rintro rfl
  revert h
  decide

theorem ne_minus_of_isHarmless {c : Char} (h : isHarmless c = true) :
  c ≠ '-'
  := by
  rintro rfl
  revert h
  decide

theorem isHarmless_of_isWordChar {c : Char} (h : isWordChar c = true) :
  isHarmless c = true
  := by rw [isHarmless, h, Bool.true_or]

theorem isHarmless_of_isDigit {c : Char} (h : c.isDigit = true) :
  isHarmless c = true
  := by
  apply isHarmless_of_isWordChar
  simp [isWordChar, Char.isAlphanum, h]

/-! ### Calm texts -/

/-- A text of harmless characters and minus signs, no two of which stand side by side. -/
structure IsCalm (cs : List Char) : Prop where
  marks : ∀ c ∈ cs, isHarmless c = true ∨ c = '-'
  apart : cs.IsChain fun c d => c = '-' → d ≠ '-'

namespace IsCalm

variable {c : Char} {cs : List Char}

theorem nil :
  IsCalm []
  := by
  constructor
  · simp
  · apply List.IsChain.nil

/-- A harmless character may come before a calm text. -/
theorem cons (h : IsCalm cs) (harmless : isHarmless c = true) :
  IsCalm (c :: cs)
  := by
  constructor
  · apply List.forall_mem_cons.mpr ⟨.inl harmless, h.marks⟩
  · apply List.IsChain.cons h.apart
    intro _ _ hminus
    cases ne_minus_of_isHarmless harmless hminus

/-- A minus sign may come before a calm text that starts with a harmless character. -/
theorem cons_minus (h : IsCalm cs) (harmless : isHarmless c = true) :
  IsCalm ('-' :: c :: cs)
  := by
  have hc := h.cons harmless
  constructor
  · apply List.forall_mem_cons.mpr ⟨.inr rfl, hc.marks⟩
  · apply List.IsChain.cons_cons _ hc.apart
    intro _
    apply ne_minus_of_isHarmless harmless

/-- No comment to the end of a line begins in a calm text. -/
theorem not_comment (h : IsCalm cs) :
  ¬ "--".toList <:+: cs
  := by
  intro hpart
  have hchain := h.apart.infix hpart
  cases hchain with
  | cons_cons hminus => exact hminus rfl rfl

/-- No other comment begins in a calm text either. -/
theorem not_blockComment (h : IsCalm cs) :
  ¬ "/*".toList <:+: cs
  := by
  intro hpart
  have hslash := h.marks '/' (hpart.subset (by decide))
  revert hslash
  decide

end IsCalm

/-! ### Guarded texts -/

namespace Guarded

variable {v w : List Char} {rs ss : List String}

/-- Harmless characters are guarded and hold no string. -/
theorem of_harmless (h : w.all isHarmless = true) :
  Guarded w []
  := by
  induction w with
  | nil => apply nil
  | cons c cs ih =>
    rw [List.all_cons, Bool.and_eq_true] at h
    apply char h.1 (ih h.2)

/-- Guarded texts may be put one after the other, and so are their strings. -/
theorem append (hv : Guarded v rs) (hw : Guarded w ss) :
  Guarded (v ++ w) (rs ++ ss)
  := by
  induction hv with
  | nil => apply hw
  | char harmless _ ih => apply char harmless ih
  | minus digit _ ih => apply minus digit ih
  | string harmless _ ih =>
    rw [List.cons_append, List.append_assoc, List.cons_append]
    apply string harmless ih

/-- Guarded texts are guarded with harmless characters between any two. -/
theorem intercalate {separator : List Char} (hseparator : separator.all isHarmless = true)
    {texts : List (List Char)} {strings : List (List String)}
    (h : List.Forall₂ Guarded texts strings) :
  Guarded (separator.intercalate texts) strings.flatten
  := by
  induction h with
  | nil => apply nil
  | @cons w ss texts strings hw hrest ih =>
    cases hrest with
    | nil => simpa using hw
    | cons hnext hrest =>
      rw [List.intercalate_cons_cons, List.flatten_cons, List.append_assoc]
      apply append hw
      apply append (of_harmless hseparator) ih

end Guarded

/-! ### Texts after a harmless character -/

namespace GuardedAfter

variable {v w : List Char} {rs ss : List String}

theorem of_guarded (h : Guarded w ss) :
  GuardedAfter w ss
  := fun _ harmless => .char harmless h

/-- A quoted string after a harmless character is guarded with this string. -/
theorem quote (s : String) :
  GuardedAfter (quote s).toList [s]
  := by
  intro c harmless
  rw [← List.append_nil (Text.quote s).toList]
  apply Guarded.string harmless .nil

/-- A guarded text may follow, and its strings come behind. -/
theorem append (hv : GuardedAfter v rs) (hw : Guarded w ss) :
  GuardedAfter (v ++ w) (rs ++ ss)
  := by
  intro c harmless
  rw [← List.cons_append]
  apply (hv c harmless).append hw

/-- The space between any two texts is a harmless character before the second. -/
theorem intercalate {texts : List (List Char)} {strings : List (List String)}
    (h : List.Forall₂ GuardedAfter texts strings) :
  GuardedAfter (", ".toList.intercalate texts) strings.flatten
  := by
  induction h with
  | nil => apply of_guarded .nil
  | @cons w ss texts strings hw hrest ih =>
    cases hrest with
    | nil => simpa using hw
    | cons hnext hrest =>
      rw [List.intercalate_cons_cons, List.flatten_cons, List.append_assoc]
      apply append hw
      apply Guarded.char (c := ',') (by decide)
      apply ih ' ' (by decide)

end GuardedAfter

/-! ### Scanning -/

namespace Guarded

variable {w : List Char} {ss : List String}

/-- Inside a string, a doubled text is read as the text, up to the quote that closes. -/
theorem scan_double (s : List Char) (cs : List Char) (prefixed : List Char) :
  scan (.inside prefixed) (double s ++ quoteChar :: cs)
    = scan (.closing (prefixed ++ s)) cs
  := by
  induction s generalizing prefixed with
  | nil => simp [double, scan]
  | cons c s ih =>
    by_cases hc : c = quoteChar
    · simp [double, scan, hc, ih]
    · simp [double, scan, hc, ih]

/-- A guarded text does not begin with a quote, so it closes a string before it. -/
theorem scan_closing (h : Guarded w ss) (s : List Char) :
  scan (.closing s) w = (scan .outside w).map (.string (String.ofList s) :: ·)
  := by
  have hminus : '-' ≠ quoteChar := by decide
  cases h with
  | nil => rfl
  | char harmless =>
    simp [scan, ne_quoteChar_of_isHarmless harmless, Function.comp_def]
  | minus => simp [scan, hminus, Function.comp_def]
  | string harmless =>
    simp [scan, ne_quoteChar_of_isHarmless harmless, Function.comp_def]

/-- A string is found after a harmless character. -/
theorem scan_string {c : Char} (harmless : isHarmless c = true) (s : String)
    (h : Guarded w ss) :
  scan .outside (c :: ((quote s).toList ++ w))
    = (scan .outside w).map fun ts => .char c :: .string s :: ts
  := by
  have hopen :
      scan .outside ((quote s).toList ++ w) = scan (.inside []) (double s.toList ++ quoteChar :: w)
      := by simp [quote, scan]
  rw [scan, if_neg (ne_quoteChar_of_isHarmless harmless), hopen, scan_double, List.nil_append,
    scan_closing h, Option.map_map, String.ofList_toList]
  rfl

/-- A scanner finds in a guarded text the strings that were written, and nothing but a calm
text outside of them. -/
theorem exists_scan_eq (h : Guarded w ss) :
  ∃ ts, scan .outside w = some ts ∧ stringsOf ts = ss ∧ IsCalm (outsideOf ts)
  := by
  induction h with
  | nil => exact ⟨[], rfl, rfl, .nil⟩
  | @char c _ _ harmless _ ih =>
    obtain ⟨ts, hscan, hstrings, hcalm⟩ := ih
    use .char c :: ts
    constructor
    · rw [scan, if_neg (ne_quoteChar_of_isHarmless harmless), hscan]
      rfl
    · exact ⟨hstrings, hcalm.cons harmless⟩
  | @minus d _ _ digit _ ih =>
    obtain ⟨ts, hscan, hstrings, hcalm⟩ := ih
    have harmless := isHarmless_of_isDigit digit
    have hminus : '-' ≠ quoteChar := by decide
    use .char '-' :: .char d :: ts
    constructor
    · rw [scan, if_neg hminus, scan, if_neg (ne_quoteChar_of_isHarmless harmless), hscan]
      rfl
    · exact ⟨hstrings, hcalm.cons_minus harmless⟩
  | @string c s _ _ harmless hrest ih =>
    obtain ⟨ts, hscan, hstrings, hcalm⟩ := ih
    use .char c :: .string s :: ts
    constructor
    · rw [scan_string harmless s hrest, hscan]
      rfl
    · rw [← hstrings]
      exact ⟨rfl, hcalm.cons harmless⟩

end Guarded

end Shortlist.Text
