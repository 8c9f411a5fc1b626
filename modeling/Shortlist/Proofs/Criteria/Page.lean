import Mathlib.Order.Interval.Set.Defs
import Shortlist.Proofs.Criteria.Sound

/-!
# Pages

Pages of the same number of items tile the rows: the row at `r` is on page `r / items + 1` and on
no other.  The page is counted in 32 bits and the rows before it in 64, and neither number wraps
around, because the page of criteria is counted from one wherever they come from.
-/

namespace Shortlist.Criteria

/-- The rows on the page, when the page has a limit. -/
def rows (c : Criteria) : Set Nat :=
  {r | ∃ offset, c.offset? = some offset
    ∧ r ∈ Set.Ico offset.toNat (offset.toNat + c.items.toNat)}

variable {c d : Criteria}

theorem page_eq_succ (hpage : 1 ≤ c.page.toNat) :
  ∃ p, c.page.toNat = p + 1 ∧ (c.page - 1).toNat = p
  := by
  have hle : 1 ≤ c.page := UInt32.le_iff_toNat_le.mpr hpage
  use c.page.toNat - 1, (Nat.sub_add_cancel hpage).symm
  apply UInt32.toNat_sub_of_le _ _ hle

/-- The number of rows before a page that is counted from one is computed without wrapping
around, and so is the number of rows up to its end. -/
theorem exists_offset?_eq (hitems : 0 < c.items) (hpage : 1 ≤ c.page.toNat) :
  ∃ offset, c.offset? = some offset ∧ offset.toNat = c.items.toNat * (c.page.toNat - 1)
    ∧ offset.toNat + c.items.toNat < 2 ^ 64
  := by
  obtain ⟨p, hp, hsub⟩ := page_eq_succ hpage
  have hend : c.items.toNat * p + c.items.toNat < 2 ^ 64 := by
    calc c.items.toNat * p + c.items.toNat
      _ = c.items.toNat * c.page.toNat := by rw [hp, Nat.mul_succ]
      _ < UInt32.size * UInt32.size := Nat.mul_lt_mul'' c.items.toNat_lt c.page.toNat_lt
      _ = 2 ^ 64 := rfl
  have hoffset : (c.items.toUInt64 * (c.page - 1).toUInt64).toNat = c.items.toNat * p := by
    rw [UInt64.toNat_mul, UInt32.toNat_toUInt64, UInt32.toNat_toUInt64, hsub]
    apply Nat.mod_eq_of_lt
    apply (Nat.le_add_right ..).trans_lt hend
  refine ⟨_, if_pos hitems, ?_, ?_⟩
  · rw [hoffset, hp, Nat.add_sub_cancel]
  · rwa [hoffset]

/-- The rows on a page are those between two multiples of the number of items. -/
theorem rows_eq_Ico (hitems : 0 < c.items) (hpage : 1 ≤ c.page.toNat) :
  c.rows = Set.Ico (c.items.toNat * (c.page.toNat - 1)) (c.items.toNat * c.page.toNat)
  := by
  obtain ⟨p, hp, -⟩ := page_eq_succ hpage
  obtain ⟨offset, hoffset, hnat, -⟩ := exists_offset?_eq hitems hpage
  ext r
  simp only [rows, hoffset, Option.some.injEq, exists_eq_left', Set.mem_ofPred_eq, hnat, hp,
    Nat.add_sub_cancel, Nat.mul_succ]

/-- A row is on the page that its number divided by the number of items says. -/
theorem mem_rows_iff (hitems : 0 < c.items) (hpage : 1 ≤ c.page.toNat) (r : Nat) :
  r ∈ c.rows ↔ c.page.toNat = r / c.items.toNat + 1
  := by
  obtain ⟨p, hp, -⟩ := page_eq_succ hpage
  have hpos : 0 < c.items.toNat := UInt32.lt_iff_toNat_lt.mp hitems
  rw [rows_eq_Ico hitems hpage, Set.mem_Ico, hp, Nat.add_sub_cancel, Nat.mul_comm _ p,
    Nat.mul_comm _ (p + 1), ← Nat.le_div_iff_mul_le hpos, ← Nat.div_lt_iff_lt_mul hpos]
  omega

/-- Different pages of the same number of items share no row. -/
theorem notMem_rows_of_page_ne (hitems : 0 < c.items) (heq : d.items = c.items)
    (hc : 1 ≤ c.page.toNat) (hd : 1 ≤ d.page.toNat) (hne : c.page ≠ d.page) :
  ∀ r ∈ c.rows, r ∉ d.rows
  := by
  intro r hrc hrd
  apply hne
  apply UInt32.toNat_inj.mp
  rw [(mem_rows_iff hitems hc r).mp hrc, (mem_rows_iff (heq ▸ hitems) hd r).mp hrd, heq]

/-- The rows of the next page begin where those of a page end. -/
theorem adjacent_rows (hitems : 0 < c.items) (heq : d.items = c.items) (hc : 1 ≤ c.page.toNat)
    (hd : d.page.toNat = c.page.toNat + 1) :
  ∃ first middle last, first < middle ∧ middle < last ∧ c.rows = Set.Ico first middle
    ∧ d.rows = Set.Ico middle last
  := by
  obtain ⟨p, hp, -⟩ := page_eq_succ hc
  have hpos : 0 < c.items.toNat := UInt32.lt_iff_toNat_lt.mp hitems
  use c.items.toNat * p, c.items.toNat * (p + 1), c.items.toNat * (p + 2)
  refine ⟨Nat.mul_lt_mul_of_pos_left (Nat.lt_succ_self _) hpos,
    Nat.mul_lt_mul_of_pos_left (Nat.lt_succ_self _) hpos, ?_, ?_⟩
  · rw [rows_eq_Ico hitems hc, hp, Nat.add_sub_cancel]
  · rw [rows_eq_Ico (heq ▸ hitems) (hd ▸ Nat.le_add_left ..), heq, hd, hp, Nat.add_sub_cancel]

/-- Every page that is counted from one can be asked for, with any number of items. -/
theorem exists_produced (items : UInt32) {page : UInt32} (hpage : page ≠ 0) :
  ∃ c : Criteria, c.Produced ∧ c.items = items ∧ c.page = page
  := by
  let calls : List Draft.Call := [.setItems items, .setPage page]
  have hbuild : (Draft.new.performAll calls).build
      = .ok { standard with items := items, page := page } := by
    apply (Draft.build_eq_ok_iff ..).mpr
    simp [calls, Draft.performAll, Draft.perform, Draft.setItems, Draft.setPage, Draft.new,
      standard, hpage, Keyed.keys, Operators.insertAll]
  exact ⟨_, .draft hbuild, rfl, rfl⟩

/-- Every row before the end of the last page is on exactly one page that can be asked for. -/
theorem existsUnique_page (hitems : 0 < c.items) {r : Nat}
    (hr : r < c.items.toNat * (2 ^ 32 - 1)) :
  ∃! page : UInt32, ∃ d : Criteria, d.Produced ∧ d.items = c.items ∧ d.page = page ∧ r ∈ d.rows
  := by
  have hlt : r / c.items.toNat + 1 < UInt32.size :=
    Nat.succ_lt_succ (Nat.div_lt_of_lt_mul hr)
  have hpage : (UInt32.ofNat (r / c.items.toNat + 1)).toNat = r / c.items.toNat + 1 :=
    UInt32.toNat_ofNat_of_lt' hlt
  have hne : UInt32.ofNat (r / c.items.toNat + 1) ≠ 0 := by
    intro h
    rw [h] at hpage
    cases hpage
  obtain ⟨d, hd, heq, hdpage⟩ := exists_produced c.items hne
  use d.page
  constructor
  · refine ⟨d, hd, heq, rfl, ?_⟩
    rw [mem_rows_iff (heq ▸ hitems) hd.isSound.page, hdpage, hpage, heq]
  · rintro _ ⟨e, he, heq', rfl, hrow⟩
    apply UInt32.toNat_inj.mp
    rw [hdpage, hpage, (mem_rows_iff (heq' ▸ hitems) he.isSound.page r).mp hrow, heq']

end Shortlist.Criteria
