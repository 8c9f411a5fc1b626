import Shortlist.Model.Name
import Shortlist.Proofs.Text.Words

/-!
# Base names and snake case

The base name of a type is cut off behind a separator that ends later than all others.  The cut is
a place between two characters, and nothing behind it is a separator.  The snake case of an ASCII
name has no capitals, and but for underscores it is the name in lower case, so it is its own snake
case.
-/

namespace Shortlist

/-! ### The last separator -/

/-- What separates the parts of a name. -/
def separators : List String := ["::", "\\"]

theorem toList_ne_nil_of_mem_separators :
  ∀ separator ∈ separators, separator.toList ≠ []
  := by decide

/-- The part stands behind a separator. -/
def IsBehind (cs part : List Char) : Prop :=
  ∃ separator ∈ separators, ∃ before, cs = before ++ (separator.toList ++ part)

/-- A part is behind a separator that starts with the first character, or behind one of the rest. -/
theorem isBehind_cons_iff (c : Char) (cs part : List Char) :
  IsBehind (c :: cs) part
    ↔ (∃ separator ∈ separators, c :: cs = separator.toList ++ part) ∨ IsBehind cs part
  := by
  constructor
  · rintro ⟨separator, hseparator, before, h⟩
    cases before with
    | nil => exact .inl ⟨separator, hseparator, h⟩
    | cons d before => exact .inr ⟨separator, hseparator, before, (List.cons.inj h).2⟩
  · rintro (⟨separator, hseparator, h⟩ | ⟨separator, hseparator, before, rfl⟩)
    · exact ⟨separator, hseparator, [], h⟩
    · exact ⟨separator, hseparator, c :: before, rfl⟩

/-- A separator has characters, so behind it there are fewer of them. -/
theorem IsBehind.suffix {c : Char} {cs part : List Char} (h : IsBehind (c :: cs) part) :
  part <:+ cs
  := by
  obtain ⟨separator, hseparator, before, h⟩ := h
  have hne : before ++ separator.toList ≠ [] :=
    List.append_ne_nil_of_right_ne_nil _ (toList_ne_nil_of_mem_separators _ hseparator)
  rw [← List.append_assoc, List.cons_eq_append_iff] at h
  obtain ⟨hnil, -⟩ | ⟨front, -, rfl⟩ := h
  · cases hne hnil
  · apply List.suffix_append

/-- The part behind the last separator, and all of the best one when there is none. -/
inductive Cut (best cs : List Char) : List Char → Prop
  | whole (h : ∀ part, ¬ IsBehind cs part) : Cut best cs best
  | behind {part : List Char} (h : IsBehind cs part)
      (last : ∀ other, IsBehind cs other → part <:+ other) : Cut best cs part

/-- A separator is the last one unless there is one behind its first character. -/
theorem Cut.found {found best cs rest part : List Char} (h : Cut found rest part)
    (hcs : ∀ part, IsBehind cs part ↔ part = found ∨ IsBehind rest part)
    (hrest : ∀ part, IsBehind rest part → part <:+ found) :
  Cut best cs part
  := by
  cases h with
  | whole h =>
    apply Cut.behind
    · exact (hcs _).mpr (.inl rfl)
    · intro other hother
      obtain rfl := ((hcs other).mp hother).resolve_right (h other)
      apply List.suffix_refl
  | behind h last =>
    apply Cut.behind
    · exact (hcs _).mpr (.inr h)
    · intro other hother
      rcases (hcs other).mp hother with rfl | hother
      · apply hrest part h
      · apply last other hother

/-- The cut depends on nothing but the parts behind separators. -/
theorem Cut.skip {best cs rest part : List Char} (h : Cut best rest part)
    (hcs : ∀ part, IsBehind cs part ↔ IsBehind rest part) :
  Cut best cs part
  := by
  cases h with
  | whole h => exact .whole fun part hpart => h part ((hcs part).mp hpart)
  | behind h last =>
    exact .behind ((hcs _).mpr h) fun other hother => last other ((hcs other).mp hother)

/-- What is found is the part behind the last separator. -/
theorem cut_afterLastSeparator (best cs : List Char) :
  Cut best cs (afterLastSeparator best cs)
  := by
  fun_induction afterLastSeparator best cs with
  | case1 best cs ih =>
    apply ih.found
    · simp [isBehind_cons_iff ':' (':' :: cs), separators, eq_comm]
    · intro part h
      apply h.suffix
  | case2 best cs ih =>
    apply ih.found
    · simp [isBehind_cons_iff '\\', separators, eq_comm]
    · rintro part ⟨separator, -, before, rfl⟩
      rw [← List.append_assoc]
      apply List.suffix_append
  | case3 best c cs hcolons hbackslash ih =>
    apply ih.skip
    intro part
    rw [isBehind_cons_iff]
    apply or_iff_right
    simp only [separators, List.mem_cons, List.not_mem_nil, or_false]
    rintro ⟨separator, rfl | rfl, h⟩
    · obtain ⟨rfl, rfl⟩ := List.cons.inj h
      exact hcolons part rfl rfl
    · obtain ⟨rfl, rfl⟩ := List.cons.inj h
      exact hbackslash rfl
  | case4 =>
    apply Cut.whole
    rintro part ⟨separator, hseparator, before, h⟩
    have hnil := (List.append_eq_nil_iff.mp (List.append_eq_nil_iff.mp h.symm).2).1
    exact toList_ne_nil_of_mem_separators separator hseparator hnil

/-- There are no separators behind the last one. -/
theorem Cut.noSeparator {cs part : List Char} (h : Cut cs cs part) :
  ∀ separator ∈ separators, ¬ separator.toList <:+: part
  := by
  rintro separator hseparator ⟨left, right, rfl⟩
  have hlater {before : List Char} (hcs : cs = before ++ (left ++ separator.toList ++ right)) :
      IsBehind cs right := by
    use separator, hseparator, before ++ left
    rw [hcs]
    simp only [List.append_assoc]
  cases h with
  | whole h => exact h right (@hlater [] rfl)
  | behind h last =>
    obtain ⟨other, -, before, hcs⟩ := h
    rw [← List.append_assoc] at hcs
    have hlength := (last right (hlater hcs)).length_le
    have hpos := List.length_pos_of_ne_nil (toList_ne_nil_of_mem_separators _ hseparator)
    simp only [List.length_append] at hlength
    omega

/-! ### The cut -/

/-- A separator ends at the offset. -/
def EndsAt (separator s : String) (offset : String.Pos.Raw) : Prop :=
  ∃ before after, s = before ++ separator ++ after ∧ offset = (before ++ separator).rawEndPos

/-- The offset behind the last separator, whichever that is, or the start of a name without
separators. -/
inductive IsCut (s : String) : String.Pos.Raw → Prop
  | start (h : ∀ separator ∈ separators, ∀ offset, ¬ EndsAt separator s offset) : IsCut s 0
  | behind {separator : String} {offset : String.Pos.Raw} (hseparator : separator ∈ separators)
      (ends : EndsAt separator s offset)
      (last : ∀ other ∈ separators, ∀ earlier, EndsAt other s earlier → earlier ≤ offset) :
      IsCut s offset

/-- There is one cut at most. -/
theorem IsCut.unique {s : String} {offset offset' : String.Pos.Raw} (h : IsCut s offset)
    (h' : IsCut s offset') :
  offset = offset'
  := by
  cases h with
  | start h =>
    cases h' with
    | start _ => rfl
    | behind hseparator ends _ => cases h _ hseparator _ ends
  | behind hseparator ends last =>
    cases h' with
    | start h' => cases h' _ hseparator _ ends
    | behind hseparator' ends' last' =>
      have hle := String.Pos.Raw.le_iff.mp (last' _ hseparator _ ends)
      have hge := String.Pos.Raw.le_iff.mp (last _ hseparator' _ ends')
      apply String.Pos.Raw.ext (Nat.le_antisymm hle hge)

/-- What is behind a separator begins at a place between two characters. -/
theorem IsBehind.exists_splits {s : String} {part : List Char} (h : IsBehind s.toList part) :
  ∃ separator ∈ separators, ∃ before, ∃ p : s.Pos,
    p.Splits (before ++ separator) (String.ofList part)
  := by
  obtain ⟨separator, hseparator, before, h⟩ := h
  have hs : s = (String.ofList before ++ separator) ++ String.ofList part := by
    apply String.toList_inj.mp
    simp [h]
  subst hs
  exact ⟨separator, hseparator, _, _, String.Pos.splits_append_rawEndPos⟩

/-- Where a separator ends, something is behind it. -/
theorem EndsAt.exists_isBehind {separator s : String} {offset : String.Pos.Raw}
    (h : EndsAt separator s offset) (hseparator : separator ∈ separators) :
  ∃ part, IsBehind s.toList part ∧ offset.byteIdx + String.utf8Len part = s.utf8ByteSize
  := by
  obtain ⟨before, after, rfl, rfl⟩ := h
  use after.toList
  constructor
  · exact ⟨separator, hseparator, before.toList, by simp⟩
  · rw [String.utf8ByteSize_append, ← String.utf8ByteSize_ofList, String.ofList_toList,
      String.byteIdx_rawEndPos]

/-- The base name is the slice of the name from the cut, which is a place between two
characters. -/
theorem exists_baseName_eq_slice (s : String) :
  ∃ p : s.Pos, (∀ offset, IsCut s offset ↔ offset = p.offset)
    ∧ baseName s = (s.sliceFrom p).copy
  := by
  rw [baseName]
  have hcut := cut_afterLastSeparator s.toList s.toList
  obtain ⟨before, p, hsplits, hp⟩ : ∃ (before : String) (p : s.Pos),
      p.Splits before (String.ofList (afterLastSeparator s.toList s.toList))
        ∧ IsCut s p.offset := by
    generalize afterLastSeparator s.toList s.toList = part at hcut
    cases hcut with
    | whole h =>
      rw [String.ofList_toList]
      refine ⟨_, _, String.splits_startPos s, ?_⟩
      apply IsCut.start
      rintro separator hseparator offset ends
      obtain ⟨part, hpart, -⟩ := ends.exists_isBehind hseparator
      exact h part hpart
    | behind h last =>
      obtain ⟨separator, hseparator, before, p, hsplits⟩ := h.exists_splits
      refine ⟨_, p, hsplits, ?_⟩
      apply IsCut.behind hseparator ⟨before, _, hsplits.eq_append, hsplits.offset_eq_rawEndPos⟩
      intro other hother earlier ends
      obtain ⟨part', hpart', hbytes⟩ := ends.exists_isBehind hother
      obtain ⟨more, rfl⟩ := last part' hpart'
      have hsize := congrArg String.utf8ByteSize hsplits.eq_append
      rw [String.utf8ByteSize_append, String.utf8ByteSize_ofList] at hsize
      rw [String.utf8Len_append] at hbytes
      rw [String.Pos.Raw.le_iff, hsplits.offset_eq_rawEndPos, String.byteIdx_rawEndPos]
      omega
  use p
  constructor
  · intro offset
    constructor
    · intro h
      apply h.unique hp
    · rintro rfl
      exact hp
  · exact (hsplits.eq p.splits).2

/-- There are no separators in a base name. -/
theorem baseName_noSeparator (s : String) :
  ∀ separator ∈ separators, ¬ separator.toList <:+: (baseName s).toList
  := by
  rw [baseName, String.toList_ofList]
  apply (cut_afterLastSeparator s.toList s.toList).noSeparator

/-! ### ASCII characters -/

namespace Text

variable {cs : List Char}

/-- The characters are ASCII characters. -/
def IsAscii (cs : List Char) : Prop := ∀ c ∈ cs, c.toNat < 0x80

theorem isAscii_of_isWordChar (h : ∀ c ∈ cs, isWordChar c = true) :
  IsAscii cs
  := by
  intro c hc
  have hrange := toNat_of_isWordChar (h c hc)
  omega

theorem utf8Len_of_isAscii (h : IsAscii cs) :
  String.utf8Len cs = cs.length
  := by
  induction cs with
  | nil => rfl
  | cons c cs ih =>
    obtain ⟨hc, hcs⟩ := List.forall_mem_cons.mp h
    have hsize : c.utf8Size = 1 := by
      rw [Char.utf8Size_eq_one_iff, UInt32.le_iff_toNat_le]
      exact Nat.le_of_lt_succ hc
    rw [String.utf8Len_cons, ih hcs, hsize, List.length_cons]

theorem toNat_toLower_lt {c : Char} (h : c.toNat < 0x80) :
  c.toLower.toNat < 0x80
  := by
  cases halpha : c.isAlpha with
  | true =>
    have hlower : c.toLower.isAlpha = true := by rw [Char.isAlpha_toLower_eq_isAlpha, halpha]
    have hrange := toNat_of_isAlpha hlower
    omega
  | false => rwa [toLower_of_isAlpha_eq_false halpha]

/-- An ASCII text is put in lower case character by character. -/
theorem flatMap_lower (h : IsAscii cs) :
  cs.flatMap lower = cs.map Char.toLower
  := by
  induction cs with
  | nil => rfl
  | cons c cs ih =>
    obtain ⟨hc, hcs⟩ := List.forall_mem_cons.mp h
    rw [List.flatMap_cons, ih hcs, lower, if_pos hc]
    rfl

end Text

/-! ### Snake case -/

open Text

/-- But for underscores, the snake case of a name is its lower case. -/
theorem filter_snakeCaseFrom (inWord : Bool) (cs : List Char) :
  (snakeCaseFrom inWord cs).filter (· != '_') = (cs.flatMap lower).filter (· != '_')
  := by
  induction cs generalizing inWord with
  | nil => rfl
  | cons c cs ih =>
    rw [snakeCaseFrom, List.flatMap_cons, List.filter_append, ← ih]
    split
    · rw [List.filter_cons_of_neg (by decide), List.filter_append]
    · rw [List.filter_append]

theorem snakeCaseFrom_cons {c : Char} (hc : c.toNat < 0x80) (inWord : Bool) (cs : List Char) :
  snakeCaseFrom inWord (c :: cs)
    = (if c.isUpper && inWord then ['_'] else [])
      ++ c.toLower :: snakeCaseFrom (isWordChar c) cs
  := by
  rw [snakeCaseFrom, isUpper, if_pos hc, isAlphanumeric, if_pos hc, lower, if_pos hc, isWordChar]
  split <;> rfl

/-- The snake case is made of small letters, underscores and what has no case. -/
theorem eq_or_eq_toLower_of_mem_snakeCaseFrom {cs : List Char} (h : IsAscii cs) (inWord : Bool) :
  ∀ d ∈ snakeCaseFrom inWord cs, d = '_' ∨ ∃ c ∈ cs, d = c.toLower
  := by
  induction cs generalizing inWord with
  | nil => nofun
  | cons c cs ih =>
    obtain ⟨hc, hcs⟩ := List.forall_mem_cons.mp h
    rw [snakeCaseFrom_cons hc, List.forall_mem_append, List.forall_mem_cons]
    refine ⟨?_, .inr ⟨c, List.mem_cons_self, rfl⟩, ?_⟩
    · intro d hd
      split at hd
      · exact .inl (List.mem_singleton.mp hd)
      · cases hd
    · intro d hd
      rcases ih hcs _ d hd with rfl | ⟨c', hc', rfl⟩
      · exact .inl rfl
      · exact .inr ⟨c', List.mem_cons_of_mem c hc', rfl⟩

/-- The snake case of an ASCII name is ASCII and has no capitals. -/
theorem isUpper_of_mem_snakeCaseFrom {cs : List Char} (h : IsAscii cs) (inWord : Bool) :
  ∀ d ∈ snakeCaseFrom inWord cs, d.toNat < 0x80 ∧ d.isUpper = false
  := by
  intro d hd
  rcases eq_or_eq_toLower_of_mem_snakeCaseFrom h inWord d hd with rfl | ⟨c, hc, rfl⟩
  · decide
  · exact ⟨toNat_toLower_lt (h c hc), Char.isUpper_toLower_eq_false c⟩

/-- A name without capitals is its own snake case. -/
theorem snakeCaseFrom_of_noCapitals {cs : List Char}
    (h : ∀ c ∈ cs, c.toNat < 0x80 ∧ c.isUpper = false) (inWord : Bool) :
  snakeCaseFrom inWord cs = cs
  := by
  induction cs generalizing inWord with
  | nil => rfl
  | cons c cs ih =>
    obtain ⟨⟨hc, hupper⟩, hcs⟩ := List.forall_mem_cons.mp h
    rw [snakeCaseFrom_cons hc, hupper, ih hcs, Char.toLower_eq_of_not_isUpper (by simp [hupper])]
    rfl

/-- The snake case of an ASCII name is its own snake case.  It has no capitals, and but for
underscores it is the name in lower case. -/
theorem snakeCase_of_isAscii {w : String} (h : IsAscii w.toList) :
  snakeCase (snakeCase w) = snakeCase w
    ∧ (∀ c ∈ (snakeCase w).toList, isUpper c = false)
    ∧ (snakeCase w).toList.filter (· != '_') = w.toLower.toList.filter (· != '_')
  := by
  rw [snakeCase, snakeCase, String.toList_ofList]
  have hlower := isUpper_of_mem_snakeCaseFrom h false
  refine ⟨?_, ?_, ?_⟩
  · rw [snakeCaseFrom_of_noCapitals hlower]
  · intro c hc
    obtain ⟨hascii, hupper⟩ := hlower c hc
    rw [isUpper, if_pos hascii, hupper]
  · rw [filter_snakeCaseFrom, flatMap_lower h, String.toLower, String.toList_map]

end Shortlist
