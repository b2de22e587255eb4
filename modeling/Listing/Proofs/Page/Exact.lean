import Listing.Proofs.Page.Tiling
import Mathlib.Data.Rat.Floor

namespace Listing

/-!
# Pages in exact arithmetic

A page is asked for by any two 64-bit integers, and any third may be the count of its rows.  The
arithmetic on them is that of the integers: no step of it leaves the range of 64 bits, and the one
product that would saturate there never does.

* `exactly` — the 64-bit integer of a number, if it is in range;
* `OffsetPage.withTotal?`, `OffsetPage.offset?` — a page with its totals, and the rows before it, by
  steps that each have to stay in range;
* `OffsetPage.Holds` — the window of a page has a row, with `OffsetPage.Counted.holds_iff`;
* `OffsetPage.Exact` — what a page comes to, in integers without bounds;
* `OffsetPage.exact_withTotal` — whatever the three integers are, it comes to that.
-/

/-! ### Steps in range -/

/-- The 64-bit integer of a number that is in range. -/
def exactly (n : Int) : Option Int64 :=
  if Int64.minValue.toInt ≤ n ∧ n ≤ Int64.maxValue.toInt then some (Int64.ofInt n) else none

/-- A number that is in range is the value of its 64-bit integer, and there is no other. -/
theorem exactly_eq_some_iff {n : Int} {m : Int64} : exactly n = some m ↔ m.toInt = n := by
  have hmin : Int64.minValue.toInt = -2 ^ 63 := rfl
  have hmax : Int64.maxValue.toInt = 2 ^ 63 - 1 := rfl
  unfold exactly
  constructor
  · intro h
    split at h
    · cases h
      exact Int64.toInt_ofInt_of_le (by omega) (by omega)
    · cases h
  · rintro rfl
    have hlow := m.le_toInt
    have hhigh := m.toInt_lt
    rw [if_pos ⟨by omega, by omega⟩, Int64.ofInt_toInt]

namespace OffsetPage

variable {p : OffsetPage} {n page perPage total count : Int64} {row : Int}

/-- The number of pages, as long as every step towards it is in range. -/
def pageCount? (total perPage : Int64) : Option Int64 :=
  if total ≤ 0 then some 0
  else do
    let before ← exactly (total.toInt - 1)
    let full ← exactly (before.toInt.tdiv (max perPage 1).toInt)
    exactly (full.toInt + 1)

/-- The page with its totals, as long as every step towards them is in range. -/
def withTotal? (p : OffsetPage) (count : Int64) : Option OffsetPage := do
  let perPage := max p.perPage 1
  let totalCount := max count 0
  let maxPage ← pageCount? totalCount perPage
  return { page := min (max p.page 1) (max maxPage 1), perPage, totalCount, maxPage }

/-- The number of rows before the page, as long as every step towards it is in range. -/
def offset? (p : OffsetPage) : Option Int64 := do
  let before ← exactly (p.page.toInt - 1)
  exactly (p.perPage.toInt * before.toInt)

/-- Counting the pages never leaves the range. -/
theorem pageCount?_eq (total perPage : Int64) :
    pageCount? total perPage = some (pageCount total perPage) := by
  unfold pageCount? pageCount
  split
  · rfl
  · rename_i hsome
    -- from here on there is a row, and no step leaves the range
    have htotal : 1 ≤ total.toInt := by
      have hzero : (0 : Int64).toInt = 0 := rfl
      rw [Int64.le_iff_toInt_le] at hsome
      omega
    have hsize : 1 ≤ (max perPage 1).toInt := by
      have hone : (1 : Int64).toInt = 1 := rfl
      rw [toInt_max]
      omega
    have hbefore := toInt_sub_one htotal
    have hfull : ((total - 1) / max perPage 1).toInt =
        (total - 1).toInt.tdiv (max perPage 1).toInt := by
      rw [toInt_fullPages htotal hsize, hbefore, Int.tdiv_eq_ediv_of_nonneg (by omega)]
    have hlast : ((total - 1) / max perPage 1 + 1).toInt =
        ((total - 1) / max perPage 1).toInt + 1 := by
      rw [toInt_fullPages_add_one htotal hsize, toInt_fullPages htotal hsize]
    rw [exactly_eq_some_iff.mpr hbefore, Option.bind_eq_bind, Option.bind_some,
      exactly_eq_some_iff.mpr hfull, Option.bind_some]
    exact exactly_eq_some_iff.mpr hlast

/-- Deriving the totals of a page does not leave it either. -/
theorem withTotal?_eq (p : OffsetPage) (count : Int64) :
    p.withTotal? count = some (p.withTotal count) := by
  rw [withTotal?, pageCount?_eq]
  rfl

/-- Nor does counting the rows before a page, if these are as many as they should be. -/
theorem offset?_eq (hpage : 1 ≤ p.page.toInt)
    (hoffset : p.offset.toInt = p.perPage.toInt * (p.page.toInt - 1)) :
    p.offset? = some p.offset := by
  have hbefore := toInt_sub_one hpage
  rw [offset?, exactly_eq_some_iff.mpr hbefore, Option.bind_eq_bind, Option.bind_some, hbefore]
  exact exactly_eq_some_iff.mpr hoffset

/-! ### Windows -/

/-- The window of the page at a number, in the same listing, has the row. -/
def Holds (p : OffsetPage) (n : Int64) (row : Int) : Prop :=
  ({ p with page := n } : OffsetPage).offset.toInt ≤ row ∧
    row < ({ p with page := n } : OffsetPage).offset.toInt + p.perPage.toInt

/-- The page of a number is the page with it. -/
theorem nth_toNat (p : OffsetPage) (hn : 1 ≤ n.toInt) :
    p.nth (n.toInt - 1).toNat = { p with page := n } := by
  have hnumber : Int64.ofNat ((n.toInt - 1).toNat + 1) = n := by
    have hmax := n.toInt_lt
    rw [← Int64.toInt_inj, Int64.toInt_ofNat_of_lt (by omega)]
    omega
  rw [nth, hnumber]

namespace Counted

/-- Before a page that there is are the rows of all pages before it. -/
theorem toInt_offset_at (h : p.Counted) (hlow : 1 ≤ n.toInt) (hhigh : n.toInt ≤ p.maxPage.toInt) :
    ({ p with page := n } : OffsetPage).offset.toInt = p.perPage.toInt * (n.toInt - 1) := by
  have hindex : (((n.toInt - 1).toNat : Nat) : Int) = n.toInt - 1 := by omega
  rw [← nth_toNat p hlow, h.toInt_offset (by omega), hindex, Int.mul_comm]

/-- The pages before one that there is do not take up all rows. -/
theorem lt_total (h : p.Counted) (hlow : 1 ≤ n.toInt) (hhigh : n.toInt ≤ p.maxPage.toInt) :
    p.perPage.toInt * (n.toInt - 1) < p.totalCount.toInt := by
  have hindex : (((n.toInt - 1).toNat : Nat) : Int) = n.toInt - 1 := by omega
  have hpage : (((n.toInt - 1).toNat : Nat) : Int) < p.maxPage.toInt := by omega
  rw [h.pages, lt_pageCount_iff h.size, hindex, Int.mul_comm] at hpage
  exact hpage

/-- A row is in the window of the page to which division by the page size leads. -/
theorem holds_iff (h : p.Counted) (hlow : 1 ≤ n.toInt) (hhigh : n.toInt ≤ p.maxPage.toInt) :
    p.Holds n row ↔ row / p.perPage.toInt = n.toInt - 1 := by
  have hsize := h.size
  rw [Holds, h.toInt_offset_at hlow hhigh, Int.ediv_eq_iff_of_pos (by omega), Int.mul_comm]

/-- Every row is in the window of one page, and of no other. -/
theorem exists_unique_holds (h : p.Counted) (hrow : 0 ≤ row) (hmax : row < p.totalCount.toInt) :
    ∃! n : Int64, (1 ≤ n.toInt ∧ n.toInt ≤ p.maxPage.toInt) ∧ p.Holds n row := by
  have hsize := h.size
  have hindex : 0 ≤ row / p.perPage.toInt := Int.ediv_nonneg hrow (by omega)
  have hcast : (((row / p.perPage.toInt).toNat : Nat) : Int) = row / p.perPage.toInt :=
    Int.toNat_of_nonneg hindex
  -- the page is found by division, and it is one of those there are
  have hpage : row / p.perPage.toInt < p.maxPage.toInt := by
    rw [← hcast, h.pages, lt_pageCount_iff hsize, hcast]
    exact Int.lt_of_le_of_lt (Int.ediv_mul_le row (by omega)) hmax
  have hnumber := toInt_nth (p := p) (i := (row / p.perPage.toInt).toNat) (by omega)
  refine ⟨(p.nth (row / p.perPage.toInt).toNat).page, ⟨⟨by omega, by omega⟩, ?_⟩, ?_⟩
  · rw [h.holds_iff (by omega) (by omega)]
    omega
  · rintro m ⟨⟨hlow, hhigh⟩, hholds⟩
    rw [h.holds_iff hlow hhigh] at hholds
    rw [← Int64.toInt_inj]
    omega

/-- The window of every page has a row. -/
theorem exists_holds (h : p.Counted) (hlow : 1 ≤ n.toInt) (hhigh : n.toInt ≤ p.maxPage.toInt) :
    ∃ row, (0 ≤ row ∧ row < p.totalCount.toInt) ∧ p.Holds n row := by
  have hsize := h.size
  have hfirst : 0 ≤ p.perPage.toInt * (n.toInt - 1) := Int.mul_nonneg (by omega) (by omega)
  refine ⟨p.perPage.toInt * (n.toInt - 1), ⟨hfirst, h.lt_total hlow hhigh⟩, ?_⟩
  rw [h.holds_iff hlow hhigh, Int.mul_ediv_cancel_left _ (by omega)]

/-- There are as many pages as the rows fill, the last one perhaps in part. -/
theorem maxPage_eq_ceil (h : p.Counted) :
    p.maxPage.toInt = ⌈(p.totalCount.toInt / p.perPage.toInt : ℚ)⌉ := by
  have hsize : (0 : ℚ) < p.perPage.toInt := by exact_mod_cast h.size
  refine (Int.ceil_eq_iff.mpr ⟨?_, ?_⟩).symm
  · rw [lt_div_iff₀ hsize]
    have hnonneg := h.maxPage_nonneg
    have hbefore : (p.maxPage.toInt - 1) * p.perPage.toInt < p.totalCount.toInt := by
      -- without a page there is no row, and otherwise the last page begins before the last row
      by_cases hnone : p.maxPage.toInt = 0
      · have hpages := h.size
        have htotal := h.total
        rw [hnone]
        omega
      · rw [Int.mul_comm]
        exact h.lt_total (by omega) (Int.le_refl _)
    exact_mod_cast hbefore
  · rw [div_le_iff₀ hsize]
    exact_mod_cast h.total_le

/-- There is no page exactly if there is no row. -/
theorem maxPage_eq_zero_iff (h : p.Counted) :
    p.maxPage.toInt = 0 ↔ p.totalCount.toInt = 0 := by
  have htotal := h.total
  constructor
  · intro hnone
    have hle := h.total_le
    rw [hnone] at hle
    omega
  · intro hnone
    rw [h.pages, toInt_pageCount h.size, if_pos (by omega)]

end Counted

/-! ### What is asked for -/

/-- What a page and a page size come to with a count of rows, in integers without bounds. -/
structure Exact (page perPage count : Int64) (p : OffsetPage) : Prop where
  /-- Every step towards the totals stays in range. -/
  inRange : (request page perPage).withTotal? count = some p
  /-- So does every step towards the number of rows before the page; none saturates. -/
  offset_inRange : p.offset? = some p.offset
  page_pos : 1 ≤ p.page.toInt
  perPage_pos : 1 ≤ p.perPage.toInt
  size : p.perPage.toInt = max perPage.toInt 1
  total : p.totalCount.toInt = max count.toInt 0
  pages : p.maxPage.toInt = ⌈(p.totalCount.toInt / p.perPage.toInt : ℚ)⌉
  noPages : p.maxPage.toInt = 0 ↔ p.totalCount.toInt = 0
  /-- The page is the requested one, brought between the first and the last. -/
  number : p.page.toInt = max 1 (min page.toInt (max p.maxPage.toInt 1))
  before : p.offset.toInt = p.perPage.toInt * (p.page.toInt - 1)
  before_lt : 0 < p.totalCount.toInt → p.offset.toInt < p.totalCount.toInt
  before_none : p.totalCount.toInt = 0 → p.offset.toInt = 0
  /-- The windows of the pages cover the rows, and no two of them share one. -/
  once : ∀ row, 0 ≤ row → row < p.totalCount.toInt →
    ∃! n : Int64, (1 ≤ n.toInt ∧ n.toInt ≤ p.maxPage.toInt) ∧ p.Holds n row
  /-- No window of a page is empty. -/
  filled : ∀ n : Int64, 1 ≤ n.toInt → n.toInt ≤ p.maxPage.toInt →
    ∃ row, (0 ≤ row ∧ row < p.totalCount.toInt) ∧ p.Holds n row
  again : p.withTotal count = p

/-- With the totals of a count, the page lies between the first and the last one. -/
theorem toInt_page_withTotal (p : OffsetPage) (count : Int64) :
    (p.withTotal count).page.toInt =
      max 1 (min p.page.toInt (max (p.withTotal count).maxPage.toInt 1)) := by
  have hone : (1 : Int64).toInt = 1 := rfl
  show (min (max p.page 1) (max (p.withTotal count).maxPage 1)).toInt = _
  rw [toInt_min, toInt_max, toInt_max, hone]
  omega

/-- So the rows before it are those of the pages before it, and none if there are no rows. -/
theorem toInt_offset_withTotal (p : OffsetPage) (count : Int64) :
    (p.withTotal count).offset.toInt =
      (p.withTotal count).perPage.toInt * ((p.withTotal count).page.toInt - 1) := by
  have hcounted := counted_withTotal p count
  have hpage := toInt_page_withTotal p count
  by_cases hrows : 1 ≤ (p.withTotal count).maxPage.toInt
  · exact hcounted.toInt_offset_at (n := (p.withTotal count).page) (by omega) (by omega)
  · have hone : (1 : Int64).toInt = 1 := rfl
    -- without a row the page is the first, and nothing stands before it
    have hfirst : (p.withTotal count).page = 1 := by
      rw [← Int64.toInt_inj]
      omega
    have hnothing : (p.withTotal count).perPage.toInt * (0 : Int64).toInt = 0 := Int.mul_zero _
    have hmax : Int64.maxValue.toInt = 2 ^ 63 - 1 := rfl
    have hproduct : (saturatingMul (p.withTotal count).perPage 0).toInt = 0 := by
      rw [toInt_saturatingMul (by omega) (by omega), hnothing]
    rw [offset, hfirst, hone, Int.sub_self, Int.mul_zero]
    exact hproduct

/-- **Pages are exact.** Whatever page and page size are asked for (`OffsetPage.request`), and
however many rows are counted, `OffsetPage.withTotal` gives the page that arithmetic without bounds
gives (`Exact`).  The windows of all pages then have each row once. -/
theorem exact_withTotal (page perPage count : Int64) :
    Exact page perPage count ((request page perPage).withTotal count) := by
  have hone : (1 : Int64).toInt = 1 := rfl
  have hzero : (0 : Int64).toInt = 0 := rfl
  have hnumber := toInt_page_withTotal (request page perPage) count
  have hoffset := toInt_offset_withTotal (request page perPage) count
  have hcounted := counted_withTotal (request page perPage) count
  have hagain := withTotal_withTotal (request page perPage) count
  have hinRange := withTotal?_eq (request page perPage) count
  have hsize : ((request page perPage).withTotal count).perPage.toInt = max perPage.toInt 1 := by
    show (max (max perPage 1) 1).toInt = _
    rw [max_max_self, toInt_max, hone]
  have htotal : ((request page perPage).withTotal count).totalCount.toInt = max count.toInt 0 := by
    show (max count 0).toInt = _
    rw [toInt_max, hzero]
  have hasked : (request page perPage).page.toInt = max page.toInt 1 := toInt_max page 1
  rw [hasked] at hnumber
  -- from here on only what is known of the page counts, not how it was made
  generalize (request page perPage).withTotal count = p at *
  have hnone := hcounted.maxPage_eq_zero_iff
  have hpages := hcounted.maxPage_nonneg
  refine ⟨hinRange, offset?_eq (by omega) hoffset, by omega, hcounted.size, hsize, htotal,
    hcounted.maxPage_eq_ceil, hnone, by omega, hoffset, fun hrows => ?_, fun hnorows => ?_,
    fun _ hrow hmax => hcounted.exists_unique_holds hrow hmax,
    fun _ hlow hhigh => hcounted.exists_holds hlow hhigh, hagain⟩
  · rw [hoffset]
    exact hcounted.lt_total (by omega) (by omega)
  · have hfirst : p.page.toInt - 1 = 0 := by omega
    rw [hoffset, hfirst, Int.mul_zero]

end OffsetPage

end Listing
