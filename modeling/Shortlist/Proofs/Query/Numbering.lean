import Mathlib.Data.List.Induction
import Mathlib.Data.List.Nodup
import Shortlist.Proofs.Keyed.Order
import Shortlist.Query.Statement

/-!
# Numbers of parameters

A numbering is determined by the references that were met: `Numbering.after` holds the
distinct names in the order of their first references, numbered from one, with the values they
are bound to.  A number never changes once it is given, so the pieces of a statement are
written as if all numbers had been known beforehand.
-/

namespace Shortlist

/-- The place of a name among the distinct names of some references, counted from one. -/
def numberAmong (references : List String) (name : String) : Nat :=
  references.eraseDups.idxOf name + 1

/-- The parameters named by pieces, in order. -/
def references (ps : List (Piece String)) : List String :=
  ps.filterMap Piece.placeholder?

/-- The numbering after references to bound parameters. -/
def Numbering.after (bound : List (String × Value)) (references : List String) : Numbering :=
  ⟨references.eraseDups.zipIdx 1, references.eraseDups.filterMap (Keyed.get? · bound)⟩

/-! ### Distinct names -/

section Distinct

variable {seen : List String} {name : String}

/-- A name that has a number keeps it whatever is named later. -/
theorem numberAmong_append (h : name ∈ seen) (later : List String) :
  numberAmong (seen ++ later) name = numberAmong seen name
  := by
  rw [numberAmong, List.eraseDups_append, List.idxOf_append_of_mem (List.mem_eraseDups.mpr h)]
  rfl

theorem get?_zipIdx (names : List String) (k : Nat) (name : String) :
  Keyed.get? name (names.zipIdx k)
    = if name ∈ names then some (names.idxOf name + k) else none
  := by
  induction names generalizing k with
  | nil => rfl
  | cons other names ih =>
    rw [List.zipIdx_cons, Keyed.get?]
    by_cases h : other = name
    · simp [h]
    · have hbeq : (other == name) = false := by simpa using h
      simp only [h, if_false, ih, List.mem_cons, Ne.symm h, false_or, List.idxOf_cons, hbeq,
        cond_false]
      split
      · congr 1
        omega
      · rfl

/-- The distinct names are counted in the order in which they are first met. -/
theorem map_numberAmong_eraseDups (names : List String) :
  names.eraseDups.map (numberAmong names) = List.range' 1 names.eraseDups.length
  := by
  apply List.ext_getElem
  · simp
  · intro i hi _
    rw [List.length_map] at hi
    rw [List.getElem_map, numberAmong, (nodup_eraseDups names).idxOf_getElem i hi,
      List.getElem_range']
    omega

end Distinct

/-! ### Numbers and values -/

/-- The numbers of names against values: the distinct names are counted in the order in which
they are first met, each has its value at its number, and the numbers are those of the values. -/
structure Numbers (names : List String) (value? : String → Option Value) (values : List Value)
    (number : String → Nat) : Prop where
  map_number : names.eraseDups.map number = List.range' 1 values.length
  map_some : values.map some = names.eraseDups.map value?
  getElem?_number : ∀ name ∈ names, values[number name - 1]? = value? name
  injective : ∀ name ∈ names, ∀ other ∈ names, number name = number other → name = other
  exists_iff : ∀ k, (∃ name ∈ names, number name = k) ↔ 1 ≤ k ∧ k ≤ values.length

theorem map_some_filterMap
    {names : List String} {value? : String → Option Value}
    (h : ∀ name ∈ names, (value? name).isSome) :
  (names.filterMap value?).map some = names.map value?
  := by
  induction names with
  | nil => rfl
  | cons name names ih =>
    obtain ⟨hname, hnames⟩ := List.forall_mem_cons.mp h
    obtain ⟨v, hv⟩ := Option.isSome_iff_exists.mp hname
    rw [List.filterMap_cons_some hv, List.map_cons, List.map_cons, ih hnames, hv]

/-- Places among the distinct names number the values of the names. -/
theorem numbers_numberAmong
    {names : List String} {value? : String → Option Value}
    (h : ∀ name ∈ names, (value? name).isSome) :
  Numbers names value? (names.eraseDups.filterMap value?) (numberAmong names)
  := by
  have hvalues : (names.eraseDups.filterMap value?).map some = names.eraseDups.map value? := by
    apply map_some_filterMap
    intro name hname
    apply h name (List.mem_eraseDups.mp hname)
  have hlength := congrArg List.length hvalues
  rw [List.length_map, List.length_map] at hlength
  constructor
  · rw [map_numberAmong_eraseDups, hlength]
  · apply hvalues
  · intro name hname
    have hget := congrArg (·[names.eraseDups.idxOf name]?) hvalues
    simp only [List.getElem?_map, List.getElem?_idxOf (List.mem_eraseDups.mpr hname),
      Option.map_some] at hget
    obtain ⟨v, hv⟩ := Option.isSome_iff_exists.mp (h name hname)
    rw [hv] at hget
    rw [numberAmong, Nat.add_sub_cancel, hv]
    simpa using hget
  · intro name hname other _ hnumber
    apply (List.idxOf_inj (List.mem_eraseDups.mpr hname)).mp
    apply Nat.succ.inj hnumber
  · intro k
    rw [hlength]
    constructor
    · rintro ⟨name, hname, rfl⟩
      have hlt := List.idxOf_lt_length_of_mem (List.mem_eraseDups.mpr hname)
      rw [numberAmong]
      omega
    · rintro ⟨hpos, hle⟩
      have hlt : k - 1 < names.eraseDups.length := by omega
      use names.eraseDups[k - 1], List.mem_eraseDups.mp (List.getElem_mem hlt)
      rw [numberAmong, (nodup_eraseDups names).idxOf_getElem _ hlt]
      omega

namespace Numbers

variable {names : List String} {value? value?' : String → Option Value}
  {values values' : List Value} {number : String → Nat}

theorem length_eq (h : Numbers names value? values number) :
  values.length = names.eraseDups.length
  := by
  have hlength := congrArg List.length h.map_some
  rwa [List.length_map, List.length_map] at hlength

/-- Under the same numbers, values that differ are values of a name. -/
theorem exists_of_getElem?_ne (h : Numbers names value? values number)
    (h' : Numbers names value?' values' number) {k : Nat} (hne : values'[k]? ≠ values[k]?) :
  ∃ name ∈ names, number name = k + 1 ∧ value?' name ≠ value? name
  := by
  have hlength : values'.length = values.length := h'.length_eq.trans h.length_eq.symm
  have hk : k < values.length := by
    by_contra hk
    rw [List.getElem?_eq_none (by omega), List.getElem?_eq_none (by omega)] at hne
    cases hne rfl
  obtain ⟨name, hname, hnumber⟩ := (h.exists_iff (k + 1)).mpr ⟨by omega, hk⟩
  use name, hname, hnumber
  have hvalue := h.getElem?_number name hname
  have hvalue' := h'.getElem?_number name hname
  rw [hnumber, Nat.add_sub_cancel] at hvalue hvalue'
  rwa [← hvalue, ← hvalue']

end Numbers

/-! ### References -/

theorem references_append (ps qs : List (Piece String)) :
  references (ps ++ qs) = references ps ++ references qs
  := List.filterMap_append

namespace Numbering

variable {bound : List (String × Value)} {seen : List String}

theorem after_nil (bound : List (String × Value)) :
  after bound [] = empty
  := rfl

theorem length_values_after (h : ∀ name ∈ seen, (Keyed.get? name bound).isSome) :
  (after bound seen).values.length = seen.eraseDups.length
  := by
  apply List.filterMap_length_eq_length.mpr
  intro name hname
  apply h name (List.mem_eraseDups.mp hname)

theorem refer_after_of_mem {name : String} (hmem : name ∈ seen) :
  refer bound (after bound seen) name
    = .ok (numberAmong (seen ++ [name]) name, after bound (seen ++ [name]))
  := by
  rw [refer, after, get?_zipIdx, if_pos (List.mem_eraseDups.mpr hmem), numberAmong, after,
    eraseDups_concat_of_mem hmem]

theorem refer_after_of_notMem
    (h : ∀ other ∈ seen, (Keyed.get? other bound).isSome) {name : String} {v : Value}
    (hname : Keyed.get? name bound = some v) (hmem : name ∉ seen) :
  refer bound (after bound seen) name
    = .ok (numberAmong (seen ++ [name]) name, after bound (seen ++ [name]))
  := by
  have hmem' : name ∉ seen.eraseDups := by rwa [List.mem_eraseDups]
  have hget : Keyed.get? name (after bound seen).numbers = none := by
    rw [after, get?_zipIdx, if_neg hmem']
  have hput := Keyed.put_of_notMem (seen.eraseDups.length + 1) ((Keyed.get?_eq_none_iff ..).mp hget)
  have hnumber : numberAmong (seen ++ [name]) name = seen.eraseDups.length + 1 := by
    rw [numberAmong, eraseDups_concat_of_notMem hmem, List.idxOf_append_of_notMem hmem',
      List.idxOf_cons_self]
  rw [refer, hget, hname, length_values_after h]
  simp only [hput, hnumber]
  simp [after, eraseDups_concat_of_notMem hmem, List.zipIdx_append, hname, Nat.add_comm]

/-- A reference to a bound parameter gives its number and extends the numbering. -/
theorem refer_after
    (h : ∀ other ∈ seen, (Keyed.get? other bound).isSome) {name : String}
    (hname : (Keyed.get? name bound).isSome) :
  refer bound (after bound seen) name
    = .ok (numberAmong (seen ++ [name]) name, after bound (seen ++ [name]))
  := by
  by_cases hmem : name ∈ seen
  · apply refer_after_of_mem hmem
  · obtain ⟨v, hv⟩ := Option.isSome_iff_exists.mp hname
    apply refer_after_of_notMem h hv hmem

/-- A reference to a parameter that is not bound is an error. -/
theorem refer_after_of_unbound
    (h : ∀ other ∈ seen, (Keyed.get? other bound).isSome) {name : String}
    (hname : Keyed.get? name bound = none) :
  refer bound (after bound seen) name = .error (.unbound name)
  := by
  have hmem : name ∉ seen.eraseDups := by
    rw [List.mem_eraseDups]
    intro hmem
    have hbound := h name hmem
    rw [hname] at hbound
    cases hbound
  rw [refer, after, get?_zipIdx, if_neg hmem, hname]

/-- The parameters count only through the values of the names that stand in the pieces. -/
theorem assign_congr
    {bound bound' : List (String × Value)} (n : Numbering) (ps : List (Piece String))
    (h : ∀ name ∈ references ps, Keyed.get? name bound = Keyed.get? name bound') :
  assign bound n ps = assign bound' n ps
  := by
  induction ps generalizing n with
  | nil => rfl
  | cons p ps ih =>
    cases p with
    | text s => rw [assign, assign, ih n h]
    | literal v => rw [assign, assign, ih n h]
    | placeholder name =>
      obtain ⟨hname, hps⟩ := List.forall_mem_cons.mp h
      have hrefer : refer bound n name = refer bound' n name := by
        rw [refer, refer, hname]
      rw [assign, assign, hrefer]
      cases refer bound' n name with
      | error e => rfl
      | ok r => simp only [ih r.2 hps]

/-- Pieces that name bound parameters are written with the numbers these have in the end. -/
theorem assign_after
    (ps : List (Piece String)) (hseen : ∀ name ∈ seen, (Keyed.get? name bound).isSome)
    (hps : ∀ name ∈ references ps, (Keyed.get? name bound).isSome) :
  assign bound (after bound seen) ps
    = .ok (ps.map (Piece.map (numberAmong (seen ++ references ps))),
        after bound (seen ++ references ps))
  := by
  induction ps generalizing seen with
  | nil =>
    rw [assign, references, List.filterMap_nil, List.append_nil]
    rfl
  | cons p ps ih =>
    cases p with
    | text s =>
      rw [assign, ih hseen hps]
      rfl
    | literal v =>
      rw [assign, ih hseen hps]
      rfl
    | placeholder name =>
      have hrefs : references (.placeholder name :: ps) = name :: references ps := rfl
      rw [hrefs, List.forall_mem_cons] at hps
      obtain ⟨hname, hps⟩ := hps
      have hseen' : ∀ other ∈ seen ++ [name], (Keyed.get? other bound).isSome := by
        rw [List.forall_mem_append, List.forall_mem_singleton]
        exact ⟨hseen, hname⟩
      have hnumber : numberAmong (seen ++ [name]) name
          = numberAmong (seen ++ name :: references ps) name := by
        have hmem := List.mem_append_right seen (List.mem_singleton_self name)
        have hkeeps := numberAmong_append hmem (references ps)
        rw [List.append_assoc, List.singleton_append] at hkeeps
        apply hkeeps.symm
      simp only [assign, refer_after hseen hname, ih hseen' hps, hrefs, hnumber,
        List.append_assoc, List.singleton_append]
      rfl

/-- The first parameter that is named and not bound is the error. -/
theorem assign_after_of_unbound
    (ps : List (Piece String)) (hseen : ∀ name ∈ seen, (Keyed.get? name bound).isSome)
    {earlier later : List String} {name : String}
    (hps : references ps = earlier ++ name :: later)
    (hearlier : ∀ other ∈ earlier, (Keyed.get? other bound).isSome)
    (hname : Keyed.get? name bound = none) :
  assign bound (after bound seen) ps = .error (.unbound name)
  := by
  induction ps generalizing seen earlier with
  | nil => simp [references] at hps
  | cons p ps ih =>
    cases p with
    | text s =>
      rw [assign, ih hseen hps hearlier]
      rfl
    | literal v =>
      rw [assign, ih hseen hps hearlier]
      rfl
    | placeholder other =>
      have hrefs : other :: references ps = earlier ++ name :: later := hps
      rw [assign]
      cases earlier with
      | nil =>
        obtain ⟨rfl, -⟩ := List.cons.inj hrefs
        rw [refer_after_of_unbound hseen hname]
      | cons _ earlier =>
        obtain ⟨rfl, hrest⟩ := List.cons.inj hrefs
        rw [List.forall_mem_cons] at hearlier
        obtain ⟨hother, hearlier⟩ := hearlier
        have hseen' : ∀ n ∈ seen ++ [other], (Keyed.get? n bound).isSome := by
          rw [List.forall_mem_append, List.forall_mem_singleton]
          exact ⟨hseen, hother⟩
        rw [refer_after hseen hother]
        simp only [ih hseen' hrest hearlier]
        rfl

end Numbering

end Shortlist
