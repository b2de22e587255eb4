import Listing.Proofs.Page.Exact

namespace Listing

/-!
# Where a page starts

A page that was read from a document may have any two integers as page and page size.  A window is
made for both raised to at least 1, but the rows before the page are counted from them as they are.
So the count is that of the window only for some pages, and for the page with the least number a
step towards it overflows.

* `OffsetPage.checkedOffset?` — the rows before a page, if no step towards them overflows;
* `OffsetPage.toInt_offset_request` — the rows before a page whose numbers are raised;
* `OffsetPage.WellPlaced` — what is expected of the rows before a page;
* `OffsetPage.wellPlaced_iff` — the pages of which it holds.
-/

/-- A number without a 64-bit integer is out of range. -/
theorem exactly_eq_none_iff {n : Int} :
    exactly n = none ↔ n < Int64.minValue.toInt ∨ Int64.maxValue.toInt < n := by
  rw [exactly, ite_eq_right_iff]
  simp only [reduceCtorEq, imp_false]
  omega

/-- What is raised to at least 1 leaves nothing negative. -/
theorem raised_mul_nonneg (size number : Int) : 0 ≤ max size 1 * (max number 1 - 1) :=
  Int.mul_nonneg (by omega) (by omega)

/-- Brought between two bounds of either sign, the product of a size and one less than a number is
that of both raised to at least 1 exactly if there is nothing to raise, or if both products
vanish. -/
theorem clamp_mul_eq_iff {low high : Int} (hlow : low < 0) (hhigh : 0 < high)
    (size number : Int) :
    max low (min high (size * (number - 1))) = min high (max size 1 * (max number 1 - 1)) ↔
      1 ≤ number ∧ 1 ≤ size ∨ number = 1 ∨ size = 0 ∧ number < 1 := by
  rcases lt_trichotomy number 1 with hbefore | rfl | hafter
  · -- nothing is before the raised number, so the product has to vanish as well
    have hraised : max number 1 = 1 := by omega
    have hvanish : size * (number - 1) = 0 ↔ size = 0 := by
      rw [Int.mul_eq_zero]
      omega
    rw [hraised, Int.sub_self, Int.mul_zero]
    omega
  · rw [Int.max_self, Int.sub_self, Int.mul_zero, Int.mul_zero]
    exact iff_of_true (by omega) (.inr (.inl rfl))
  · have hraised : max number 1 = number := by omega
    rw [hraised]
    by_cases hsize : 1 ≤ size
    · have hproduct : 0 ≤ size * (number - 1) := Int.mul_nonneg (by omega) (by omega)
      rw [Int.max_eq_left hsize]
      omega
    · -- the product is not positive, and the raised one is
      have hproduct : size * (number - 1) ≤ 0 :=
        Int.mul_nonpos_of_nonpos_of_nonneg (by omega) (by omega)
      have hone : max size 1 = 1 := by omega
      rw [hone, Int.one_mul]
      omega

namespace OffsetPage

variable {p : OffsetPage}

/-- The number of rows before the page, if no step towards it overflows.  The product is brought
into range and never does, so unlike in `offset?` it need not be exact. -/
def checkedOffset? (p : OffsetPage) : Option Int64 := do
  let before ← exactly (p.page.toInt - 1)
  return saturatingMul p.perPage before

/-- The offset does not overflow, unless the page is the least integer. -/
theorem checkedOffset?_eq (h : p.page ≠ Int64.minValue) : p.checkedOffset? = some p.offset := by
  rw [checkedOffset?, exactly_eq_some_iff.mpr (toInt_sub_one_of_ne h)]
  rfl

/-- The one page with a step that overflows is that of the least integer. -/
theorem checkedOffset?_eq_none_iff : p.checkedOffset? = none ↔ p.page = Int64.minValue := by
  constructor
  · intro hnone
    by_contra hne
    rw [checkedOffset?_eq hne] at hnone
    cases hnone
  · intro hleast
    have hout : exactly (p.page.toInt - 1) = none := by
      rw [exactly_eq_none_iff, hleast]
      omega
    rw [checkedOffset?, hout]
    rfl

/-- Where no step overflows, the rows before the page are the product of its numbers as they are,
which may be negative. -/
theorem toInt_offset_eq (h : p.page ≠ Int64.minValue) :
    p.offset.toInt = max Int64.minValue.toInt
      (min Int64.maxValue.toInt (p.perPage.toInt * (p.page.toInt - 1))) := by
  rw [offset, toInt_saturatingMul_eq, toInt_sub_one_of_ne h]

/-- The page of a request is raised to one. -/
theorem toInt_page_request (page perPage : Int64) :
    (request page perPage).page.toInt = max page.toInt 1 := toInt_max page 1

/-- So is its size. -/
theorem toInt_perPage_request (page perPage : Int64) :
    (request page perPage).perPage.toInt = max perPage.toInt 1 := toInt_max perPage 1

/-- The rows before a page whose numbers are raised are those of the pages before it, up to the
greatest integer. -/
theorem toInt_offset_request (page perPage : Int64) :
    (request page perPage).offset.toInt =
      min Int64.maxValue.toInt (max perPage.toInt 1 * (max page.toInt 1 - 1)) := by
  have hmin : Int64.minValue.toInt < 0 := by decide
  have hmax : 0 < Int64.maxValue.toInt := by decide
  have hne : (request page perPage).page ≠ Int64.minValue := by
    intro hleast
    have hpage := toInt_page_request page perPage
    rw [hleast] at hpage
    omega
  have hproduct := raised_mul_nonneg perPage.toInt page.toInt
  rw [toInt_offset_eq hne, toInt_page_request, toInt_perPage_request]
  omega

/-! ### Pages that start where their window does -/

/-- The rows before a page are as many as they should be. -/
structure WellPlaced (p : OffsetPage) : Prop where
  /-- No step towards their number overflows. -/
  inRange : p.checkedOffset? = some p.offset
  nonneg : 0 ≤ p.offset.toInt
  /-- They are the rows of the pages before, with page and page size raised to at least 1. -/
  before : p.offset.toInt =
    min Int64.maxValue.toInt (max p.perPage.toInt 1 * (max p.page.toInt 1 - 1))
  /-- Every query leaves out as many in the window of the page. -/
  window : ∀ q : Query, (q.page p).offset = some p.offset

/-- The rows before a page are as many as they should be if page and page size are at least 1.  Else
they are so only by a product that is zero: on the first page, and on pages of no rows that have a
number before it. -/
theorem wellPlaced_iff : p.WellPlaced ↔
    1 ≤ p.page.toInt ∧ 1 ≤ p.perPage.toInt ∨ p.page.toInt = 1 ∨
      p.perPage.toInt = 0 ∧ Int64.minValue.toInt < p.page.toInt ∧ p.page.toInt < 1 := by
  have hmin : Int64.minValue.toInt < 0 := by decide
  have hmax : 0 < Int64.maxValue.toInt := by decide
  have hproduct := clamp_mul_eq_iff hmin hmax p.perPage.toInt p.page.toInt
  constructor
  · intro h
    -- only the least page overflows
    have hne : p.page ≠ Int64.minValue := by
      rw [ne_eq, ← checkedOffset?_eq_none_iff, h.inRange]
      exact Option.some_ne_none _
    have hbefore := h.before
    rw [toInt_offset_eq hne, hproduct] at hbefore
    rw [ne_minValue_iff] at hne
    omega
  · intro h
    have hne : p.page ≠ Int64.minValue := by
      rw [ne_minValue_iff]
      omega
    have hbefore : p.offset.toInt =
        min Int64.maxValue.toInt (max p.perPage.toInt 1 * (max p.page.toInt 1 - 1)) := by
      rw [toInt_offset_eq hne, hproduct]
      omega
    have hrows := raised_mul_nonneg p.perPage.toInt p.page.toInt
    refine ⟨checkedOffset?_eq hne, by omega, hbefore, ?_⟩
    intro q
    have hwindow : (request p.page p.perPage).offset = p.offset := by
      rw [← Int64.toInt_inj, toInt_offset_request, hbefore]
    exact congrArg some hwindow

/-- Page and page size that are raised to at least 1 place a page well. -/
theorem wellPlaced_request (page perPage : Int64) : (request page perPage).WellPlaced := by
  have hpage := toInt_page_request page perPage
  have hsize := toInt_perPage_request page perPage
  rw [wellPlaced_iff]
  omega

end OffsetPage

end Listing
