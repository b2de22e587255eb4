import Listing.Proofs.Page.Normal

namespace Listing

/-!
# Pages of a listing

The pages that a count of rows takes up follow each other without a gap and without an overlap.
For these pages the arithmetic on 64-bit integers is exact.

* `OffsetPage.lt_pageCount_iff` — an index is that of a page if rows are left before it;
* `OffsetPage.Counted` — a page whose totals belong together, with `OffsetPage.counted_withTotal`;
* `OffsetPage.Counted.toInt_offset` — the rows before a page are all rows of the pages before it;
* `Query.page_nth` — so the window of a page starts where that of the page before it ends;
* `flatMap_windows` — such windows together are the rows from the start on.
-/

/-! ### Windows of a list -/

/-- Windows that follow each other are the items from the start on. -/
theorem flatMap_windows {α : Type} (xs : List α) (size count : Nat) :
    (List.range count).flatMap (fun i => (xs.drop (i * size)).take size) =
      xs.take (count * size) := by
  induction count with
  | zero => simp
  | succ count ih =>
    rw [List.range_succ, List.flatMap_append, ih, Nat.succ_mul, List.take_add,
      List.flatMap_singleton]

/-! ### Integers within range -/

/-- What is not the least integer is above it. -/
theorem ne_minValue_iff {n : Int64} : n ≠ Int64.minValue ↔ Int64.minValue.toInt < n.toInt := by
  have hlow := n.minValue_le_toInt
  rw [ne_eq, ← Int64.toInt_inj]
  omega

/-- Only the least integer has none before it. -/
theorem toInt_sub_one_of_ne {n : Int64} (h : n ≠ Int64.minValue) :
    (n - 1).toInt = n.toInt - 1 := by
  have hlow := ne_minValue_iff.mp h
  have hhigh := n.toInt_lt
  have hone : (1 : Int64).toInt = 1 := rfl
  have hmin : Int64.minValue.toInt = -2 ^ 63 := rfl
  rw [Int64.toInt_sub, hone]
  exact Int.bmod_eq_of_le (by omega) (by omega)

/-- One can be taken from a positive integer. -/
theorem toInt_sub_one {n : Int64} (h : 1 ≤ n.toInt) : (n - 1).toInt = n.toInt - 1 := by
  refine toInt_sub_one_of_ne ?_
  rintro rfl
  exact absurd h (by decide)

/-- One can be added below the largest integer. -/
theorem toInt_add_one {n : Int64} (h : n.toInt < Int64.maxValue.toInt) :
    (n + 1).toInt = n.toInt + 1 := by
  have hlow := n.le_toInt
  have hhigh : n.toInt < 2 ^ 63 - 1 := h
  have hone : (1 : Int64).toInt = 1 := rfl
  rw [Int64.toInt_add, hone]
  exact Int.bmod_eq_of_le (by omega) (by omega)

/-- A product is brought between the least and the greatest integer. -/
theorem toInt_saturatingMul_eq (a b : Int64) :
    (saturatingMul a b).toInt =
      max Int64.minValue.toInt (min Int64.maxValue.toInt (a.toInt * b.toInt)) := by
  have hmin : Int64.minValue.toInt = -2 ^ 63 := rfl
  have hmax : Int64.maxValue.toInt = 2 ^ 63 - 1 := rfl
  unfold saturatingMul
  simp only
  split
  · omega
  · split
    · omega
    · rw [Int64.toInt_ofInt_of_le (by omega) (by omega)]
      omega

/-- A product of two integers that is not negative is exact up to the greatest integer. -/
theorem toInt_saturatingMul {a b : Int64} (hlow : 0 ≤ a.toInt * b.toInt)
    (hhigh : a.toInt * b.toInt ≤ Int64.maxValue.toInt) :
    (saturatingMul a b).toInt = a.toInt * b.toInt := by
  have hmin : Int64.minValue.toInt < 0 := by decide
  rw [toInt_saturatingMul_eq]
  omega

namespace OffsetPage

/-! ### The number of pages -/

variable {total perPage : Int64}

/-- The pages before the last one are full, and 64-bit division counts them: it drops the fraction,
which is to round down where nothing is negative. -/
theorem toInt_fullPages (htotal : 1 ≤ total.toInt) (hsize : 1 ≤ perPage.toInt) :
    ((total - 1) / perPage).toInt = (total.toInt - 1) / perPage.toInt := by
  have hne : perPage ≠ -1 := by
    rintro rfl
    exact absurd hsize (by decide)
  rw [Int64.toInt_div_of_ne_right _ _ hne, toInt_sub_one htotal,
    Int.tdiv_eq_ediv_of_nonneg (by omega)]

/-- There are no more pages than rows, so the last one can be counted as well. -/
theorem toInt_fullPages_add_one (htotal : 1 ≤ total.toInt) (hsize : 1 ≤ perPage.toInt) :
    ((total - 1) / perPage + 1).toInt = (total.toInt - 1) / perPage.toInt + 1 := by
  have hfull := toInt_fullPages htotal hsize
  have hle : (total.toInt - 1) / perPage.toInt ≤ total.toInt - 1 :=
    Int.ediv_le_self _ (by omega)
  have hmax := total.toInt_lt
  have hvalue : Int64.maxValue.toInt = 2 ^ 63 - 1 := rfl
  rw [toInt_add_one (by omega), hfull]

/-- The number of pages is that of the full ones before the last row, and one. -/
theorem toInt_pageCount (hsize : 1 ≤ perPage.toInt) :
    (pageCount total perPage).toInt =
      if total.toInt ≤ 0 then 0 else (total.toInt - 1) / perPage.toInt + 1 := by
  -- a size of one at least is not raised
  have hraised : max perPage 1 = perPage := by
    rw [← Int64.toInt_inj, toInt_max]
    have hone : (1 : Int64).toInt = 1 := rfl
    omega
  have hzero : (0 : Int64).toInt = 0 := rfl
  unfold pageCount
  rw [hraised]
  by_cases hnone : total.toInt ≤ 0
  · rw [if_pos hnone, if_pos (Int64.le_iff_toInt_le.mpr hnone)]
    rfl
  · have hnot : ¬ total ≤ 0 := fun h => hnone (Int64.le_iff_toInt_le.mp h)
    rw [if_neg hnone, if_neg hnot, toInt_fullPages_add_one (by omega) hsize]

/-- There is a page at an index if the pages before it do not take up all rows. -/
theorem lt_pageCount_iff (hsize : 1 ≤ perPage.toInt) (i : Nat) :
    (i : Int) < (pageCount total perPage).toInt ↔ i * perPage.toInt < total.toInt := by
  rw [toInt_pageCount hsize]
  split
  · rename_i hnone
    have hproduct : 0 ≤ (i : Int) * perPage.toInt :=
      Int.mul_nonneg (Int.natCast_nonneg i) (by omega)
    omega
  · rw [Int.lt_add_one_iff, Int.le_ediv_iff_mul_le (by omega), Int.le_sub_one_iff]

/-! ### Pages with totals -/

/-- The totals of a page belong together: as many pages as the rows take up. -/
structure Counted (p : OffsetPage) : Prop where
  size : 1 ≤ p.perPage.toInt
  total : 0 ≤ p.totalCount.toInt
  pages : p.maxPage = pageCount p.totalCount p.perPage

/-- With a total a page is counted. -/
theorem counted_withTotal (p : OffsetPage) (total : Int64) : (p.withTotal total).Counted := by
  have hzero : (0 : Int64).toInt = 0 := rfl
  have hone : (1 : Int64).toInt = 1 := rfl
  refine ⟨?_, ?_, rfl⟩
  · show 1 ≤ (max p.perPage 1).toInt
    rw [toInt_max]
    omega
  · show 0 ≤ (max total 0).toInt
    rw [toInt_max]
    omega

/-- The page of the same listing at an index, counted from 0. -/
def nth (p : OffsetPage) (i : Nat) : OffsetPage := { p with page := Int64.ofNat (i + 1) }

variable {p : OffsetPage} {i : Nat}

/-- The pages are numbered from one. -/
theorem toInt_nth (hi : (i : Int) < p.maxPage.toInt) : (p.nth i).page.toInt = i + 1 := by
  have hmax := p.maxPage.toInt_lt
  show (Int64.ofNat (i + 1)).toInt = i + 1
  rw [Int64.toInt_ofNat_of_lt (by omega)]
  rfl

namespace Counted

/-- There is never a negative number of pages. -/
theorem maxPage_nonneg (h : p.Counted) : 0 ≤ p.maxPage.toInt := by
  have hsize := h.size
  rw [h.pages, toInt_pageCount hsize]
  split
  · exact Int.le_refl 0
  · have hquotient := Int.ediv_nonneg (a := p.totalCount.toInt - 1) (b := p.perPage.toInt)
      (by omega) (by omega)
    omega

/-- All rows are on some page. -/
theorem total_le (h : p.Counted) : p.totalCount.toInt ≤ p.maxPage.toInt * p.perPage.toInt := by
  have hnot : ¬ (p.maxPage.toInt.toNat : Int) < p.maxPage.toInt := by omega
  rw [h.pages, lt_pageCount_iff h.size, ← h.pages, Int.toNat_of_nonneg h.maxPage_nonneg] at hnot
  exact Int.not_lt.mp hnot

/-- Page and page size of a page that there is are taken as they are. -/
theorem request_nth (h : p.Counted) (hi : (i : Int) < p.maxPage.toInt) :
    request (p.nth i).page p.perPage = ⟨(p.nth i).page, p.perPage, 0, 0⟩ := by
  have hone : (1 : Int64).toInt = 1 := rfl
  have hpage : max (p.nth i).page 1 = (p.nth i).page := by
    rw [← Int64.toInt_inj, toInt_max, toInt_nth hi]
    omega
  have hlow := h.size
  have hsize : max p.perPage 1 = p.perPage := by
    rw [← Int64.toInt_inj, toInt_max]
    omega
  rw [request, hpage, hsize]

/-- Before a page that there is are the rows of all pages before it. -/
theorem toInt_offset (h : p.Counted) (hi : (i : Int) < p.maxPage.toInt) :
    (p.nth i).offset.toInt = i * p.perPage.toInt := by
  have hpage := toInt_nth hi
  have hbefore : ((p.nth i).page - 1).toInt = i := by
    rw [toInt_sub_one (by omega), hpage]
    omega
  have hsize := h.size
  have hproduct : 0 ≤ (i : Int) * p.perPage.toInt :=
    Int.mul_nonneg (Int.natCast_nonneg i) (by omega)
  have hrows : i * p.perPage.toInt < p.totalCount.toInt := by
    rw [h.pages, lt_pageCount_iff h.size] at hi
    exact hi
  have hmax := p.totalCount.toInt_lt
  have hvalue : Int64.maxValue.toInt = 2 ^ 63 - 1 := rfl
  -- the product stays below the total, so it does not saturate
  have hexact : (saturatingMul p.perPage ((p.nth i).page - 1)).toInt =
      p.perPage.toInt * ((p.nth i).page - 1).toInt := by
    refine toInt_saturatingMul ?_ ?_
    · rw [hbefore, Int.mul_comm]
      exact hproduct
    · rw [hbefore, Int.mul_comm]
      omega
  show (saturatingMul p.perPage ((p.nth i).page - 1)).toInt = _
  rw [hexact, hbefore, Int.mul_comm]

end Counted

end OffsetPage

/-- The window of a page that there is: its size, after the rows of all pages before it. -/
theorem Query.page_nth (q : Query) {p : OffsetPage} (h : p.Counted) {i : Nat}
    (hi : (i : Int) < p.maxPage.toInt) :
    ∃ offset : Int64, offset.toInt = i * p.perPage.toInt ∧
      q.page (p.nth i) = { q with limit := some p.perPage, offset := some offset } := by
  refine ⟨(p.nth i).offset, h.toInt_offset hi, ?_⟩
  have hrequest := h.request_nth hi
  show (q.withLimit (OffsetPage.request (p.nth i).page p.perPage).perPage).withOffset
    (OffsetPage.request (p.nth i).page p.perPage).offset = _
  rw [hrequest]
  rfl

end Listing
