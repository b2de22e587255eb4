import Mathlib.Algebra.Order.Field.Power
import Mathlib.Data.Rat.Cast.Order
import Mathlib.Tactic.FieldSimp
import Mathlib.Tactic.Linarith
import Mathlib.Tactic.NormNum
import Mathlib.Tactic.Positivity
import Mathlib.Tactic.Ring
import Listing.Number.Binary

namespace Listing.Number

/-!
# Floating-point numbers as rationals

A finite float is a rational number, exactly.  So what is lost when an integer is rounded to a float
can be said in rationals.

* `FloatValue.toRat?`, `Binary64.toRat?` — the rational that a float is, none for infinities and
  NaNs;
* `FloatValue.toRat?_finite` — as a quotient of two natural numbers, of which one is 1;
* `Binary64.IsNearest` — no float is nearer to a rational;
* `Binary64.toRat?_ofNat` — an integer of 64 bits with its highest bit set, as a float: it keeps 53
  bits and rounds the eleven others away;
* `Binary64.isNearest_ofNat` — which gives the float nearest to it.
-/

/-! ### Exact values -/

namespace FloatValue

/-- The rational number that a value is; infinities and NaNs are none. -/
def toRat? : FloatValue → Option ℚ
  | .finite negative units scale => some ((if negative then -1 else 1) * (units * 2 ^ scale))
  | _ => none

variable {negative : Bool} {units : Nat} {scale : Int}

/-- A power of two as a quotient, of which one side is 1. -/
theorem zpow_eq_div (scale : Int) :
    (2 : ℚ) ^ scale = (2 ^ scale.toNat : Nat) / (2 ^ (-scale).toNat : Nat) := by
  push_cast
  rcases le_total 0 scale with h | h
  · rw [Int.toNat_of_nonpos (by omega : -scale ≤ 0), pow_zero, div_one, ← zpow_natCast,
      Int.toNat_of_nonneg h]
  · rw [Int.toNat_of_nonpos h, pow_zero, one_div, ← zpow_natCast,
      Int.toNat_of_nonneg (by omega), zpow_neg, inv_inv]

/-- A finite float has the value of its units at its scale. -/
theorem toRat?_finite :
    (finite negative units scale).toRat? =
      some ((if negative then -1 else 1) *
        ((units * 2 ^ scale.toNat : Nat) / (2 ^ (-scale).toNat : Nat) : ℚ)) := by
  rw [toRat?, zpow_eq_div, Nat.cast_mul, mul_div_assoc]

end FloatValue

/-- A quotient is an integer exactly if nothing remains of the division. -/
theorem div_eq_intCast_iff {num den : Nat} (hden : 0 < den) {n : ℤ} :
    (num / den : ℚ) = n ↔ num % den = 0 ∧ n = (num / den : Nat) := by
  have hden' : (den : ℚ) ≠ 0 := by exact_mod_cast hden.ne'
  rw [div_eq_iff hden']
  constructor
  · intro h
    have hprod : (num : ℤ) = n * den := by exact_mod_cast h
    have hdvd : den ∣ num := by exact_mod_cast Dvd.intro_left n hprod.symm
    refine ⟨Nat.mod_eq_zero_of_dvd hdvd, ?_⟩
    rw [Int.natCast_div, hprod, Int.mul_ediv_cancel _ (by omega)]
  · rintro ⟨hrest, rfl⟩
    exact_mod_cast (Nat.div_mul_cancel (Nat.dvd_of_mod_eq_zero hrest)).symm

namespace Binary64

/-- The rational number that a float is; infinities and NaNs are none. -/
def toRat? (x : Binary64) : Option ℚ := x.value.toRat?

/-- A float that is a rational is finite. -/
theorem isFinite_of_toRat? {x : Binary64} {q : ℚ} (h : x.toRat? = some q) : x.isFinite = true := by
  unfold toRat? at h
  unfold isFinite
  cases hvalue : x.value with
  | nan negative => rw [hvalue] at h; cases h
  | infinite negative => rw [hvalue] at h; cases h
  | finite negative units scale => rfl

/-- The float is a number, and no other float is nearer to `q`. -/
def IsNearest (x : Binary64) (q : ℚ) : Prop :=
  ∃ r, x.toRat? = some r ∧ ∀ (y : Binary64) (s : ℚ), y.toRat? = some s → |r - q| ≤ |s - q|

end Binary64

/-! ### Rounding -/

/-- No multiple is nearer to a number than the one it is rounded to. -/
theorem roundHalfEven_nearest (n : Nat) (k : ℤ) :
    |2048 * (roundHalfEven n 2048 : ℤ) - n| ≤ |2048 * k - n| := by
  have hround : |2048 * (roundHalfEven n 2048 : ℤ) - n| ≤ 1024 := by
    unfold roundHalfEven
    rw [abs_le]
    simp only
    split
    · omega
    · split <;> omega
  rcases eq_or_ne k (roundHalfEven n 2048) with rfl | hk
  · exact le_refl _
  · -- the multiples are 2048 apart, so another one is at least half of that away
    rw [abs_le] at hround
    refine (abs_le.mpr hround).trans (le_abs.mpr ?_)
    omega

namespace FloatFormat

variable {exponent fraction units : Nat}

/-- A normal number by its two fields; the leading bit of its units is not among them. -/
theorem decode_normal (hpos : 0 < exponent) (htop : exponent < 2047)
    (hfraction : fraction < 2 ^ 52) :
    binary64.decode (exponent * 2 ^ 52 + fraction) =
      .finite false (2 ^ 52 + fraction) (binary64.minScale + exponent - 1) := by
  have hsign : (exponent * 2 ^ 52 + fraction) / 2 ^ 63 % 2 = 0 := by omega
  have hrest : (exponent * 2 ^ 52 + fraction) % 2 ^ 52 = fraction := by omega
  have hfield : (exponent * 2 ^ 52 + fraction) / 2 ^ 52 % 2 ^ 11 = exponent := by omega
  have hweight : binary64.signWeight = 2 ^ 63 := rfl
  have htopField : binary64.topExponent = 2047 := rfl
  rw [decode, hweight, htopField, show binary64.fractionBits = 52 from rfl,
    show binary64.exponentBits = 11 from rfl, hsign, hrest, hfield, if_neg (by omega),
    if_neg (by omega)]
  rfl

/-- Units of 53 bits at some exponent; one more than the greatest run into the next exponent. -/
theorem toRat?_decode (htop : exponent + 2 < 2047) (hlow : 2 ^ 52 ≤ units)
    (hhigh : units ≤ 2 ^ 53) :
    (binary64.decode (exponent * 2 ^ 52 + units)).toRat? =
      some (units * 2 ^ (binary64.minScale + exponent) : ℚ) := by
  -- when rounding reaches the end of the binade, the bits are those of the next one
  rcases Nat.lt_or_eq_of_le hhigh with hlt | rfl
  · have hbits : exponent * 2 ^ 52 + units = (exponent + 1) * 2 ^ 52 + (units - 2 ^ 52) := by omega
    have hunits : 2 ^ 52 + (units - 2 ^ 52) = units := by omega
    have hscale : binary64.minScale + (exponent + 1 : Nat) - 1 = binary64.minScale + exponent := by
      push_cast
      ring
    rw [hbits, decode_normal (by omega) (by omega) (by omega), hunits, hscale, FloatValue.toRat?]
    simp
  · have hbits : exponent * 2 ^ 52 + 2 ^ 53 = (exponent + 2) * 2 ^ 52 + 0 := by omega
    rw [hbits, decode_normal (by omega) (by omega) (by omega), FloatValue.toRat?]
    have hscale :
        binary64.minScale + (exponent + 2 : Nat) - 1 = binary64.minScale + exponent + 1 := by
      push_cast
      ring
    rw [hscale, zpow_add_one₀ (by norm_num)]
    norm_num
    ring

end FloatFormat

namespace Binary64

variable {n : Nat}

/-- Rounding to the units of this binade stays in it, or reaches its end. -/
theorem roundHalfEven_bounds (hlow : 2 ^ 63 ≤ n) (hhigh : n < 2 ^ 64) :
    2 ^ 52 ≤ roundHalfEven n 2048 ∧ roundHalfEven n 2048 ≤ 2 ^ 53 := by
  unfold roundHalfEven
  simp only
  split
  · omega
  · split <;> omega

/-- Numbers of 64 bits with the first one set are of one binade. -/
theorem floorLog2_of_large (hlow : 2 ^ 63 ≤ n) (hhigh : n < 2 ^ 64) : floorLog2 n 1 = 63 := by
  have hlog : n.log2 = 63 := (Nat.log2_eq_iff (by omega)).mpr ⟨hlow, hhigh⟩
  have hone : Nat.log2 1 = 0 := rfl
  rw [floorLog2, hlog, hone]
  exact if_pos (by simpa using hlow)

/-- A number with its highest bit at place 63 keeps 53 bits, before a carry. -/
theorem nearest_of_large (hlow : 2 ^ 63 ≤ n) (hhigh : n < 2 ^ 64) :
    binary64.nearest n 1 = 1085 * 2 ^ 52 + roundHalfEven n 2048 := by
  -- 52 bits stay below the leading one, so the unit is `2 ^ 11`
  have hscale : max binary64.minScale (63 - (binary64.fractionBits : Int)) = 11 := rfl
  have hunits := (roundHalfEven_bounds hlow hhigh).2
  rw [FloatFormat.nearest, if_neg (by omega), floorLog2_of_large hlow hhigh]
  simp only [hscale]
  -- 1085 is the exponent field of that unit, less one for the leading bit, which carries into it
  show min (2047 * 2 ^ 52) (1085 * 2 ^ 52 + roundHalfEven (n * 1) 2048) = _
  rw [Nat.mul_one, Nat.min_eq_right (by omega)]

/-- As a float a number with its highest bit at place 63 is a multiple of 2048. -/
theorem toRat?_ofNat (hlow : 2 ^ 63 ≤ n) (hhigh : n < 2 ^ 64) :
    (ofNat n).toRat? = some ((2048 * (roundHalfEven n 2048 : ℤ) : ℤ) : ℚ) := by
  have hunits := roundHalfEven_bounds hlow hhigh
  have hbits : (ofNat n).bits.toNat = 1085 * 2 ^ 52 + roundHalfEven n 2048 := by
    have hsign : FloatFormat.encode.sign binary64 false = 0 := rfl
    rw [ofNat, ofRatio, nearest_of_large hlow hhigh, hsign, Nat.zero_add, UInt64.toNat_ofNat']
    omega
  have hscale : binary64.minScale + (1085 : Nat) = 11 := rfl
  rw [toRat?, value, hbits, FloatFormat.toRat?_decode (by omega) hunits.1 hunits.2, hscale]
  push_cast
  norm_num
  ring

/-! ### The nearest float -/

/-- The units of a float have at most 53 bits. -/
theorem units_lt {x : Binary64} {negative : Bool} {units : Nat} {scale : Int}
    (h : x.value = .finite negative units scale) : units < 2 ^ 53 := by
  unfold value FloatFormat.decode at h
  have hfraction : x.bits.toNat % 2 ^ binary64.fractionBits < 2 ^ 52 :=
    Nat.mod_lt _ (by decide)
  have hleading : 2 ^ binary64.fractionBits = 2 ^ 52 := rfl
  simp only at h
  split at h
  · split at h <;> cases h
  · split at h <;> cases h <;> omega

/-- A float that is no multiple of 2048 is below `2 ^ 63`, since it has 53 bits only. -/
theorem multiple_or_lt {x : Binary64} {q : ℚ} (h : x.toRat? = some q) :
    (∃ k : ℤ, q = 2048 * k) ∨ q < 2 ^ 63 := by
  rw [toRat?] at h
  cases hvalue : x.value with
  | nan negative => rw [hvalue] at h; cases h
  | infinite negative => rw [hvalue] at h; cases h
  | finite negative units scale =>
    rw [hvalue, FloatValue.toRat?, Option.some_inj] at h
    subst h
    -- below scale 11 the units are too few, from 11 on the power has 2048 as a factor
    rcases Int.lt_or_le scale 11 with hscale | hscale
    · right
      have hunits : (units : ℚ) < 2 ^ 53 := by exact_mod_cast units_lt hvalue
      have hpow : (2 : ℚ) ^ scale ≤ 2 ^ (10 : ℤ) := zpow_le_zpow_right₀ (by norm_num) (by omega)
      have hpos : (0 : ℚ) < 2 ^ scale := by positivity
      have hsize : (units : ℚ) * 2 ^ scale < 2 ^ 63 := by
        calc (units : ℚ) * 2 ^ scale < 2 ^ 53 * 2 ^ scale := mul_lt_mul_of_pos_right hunits hpos
          _ ≤ 2 ^ 53 * 2 ^ (10 : ℤ) := mul_le_mul_of_nonneg_left hpow (by positivity)
          _ = 2 ^ 63 := by norm_num
      have hnonneg : (0 : ℚ) ≤ units * 2 ^ scale := by positivity
      cases negative <;> simp <;> linarith
    · left
      have hshift : (2 : ℚ) ^ scale = 2048 * (2 ^ (scale - 11).toNat : Nat) := by
        push_cast
        rw [← zpow_natCast, Int.toNat_of_nonneg (by omega), zpow_sub₀ (by norm_num)]
        field_simp
        norm_num
      refine ⟨(if negative then -1 else 1) * (units * (2 ^ (scale - 11).toNat : Nat)), ?_⟩
      rw [hshift]
      cases negative <;> push_cast <;> simp <;> ring

/-- Rounding a number with its highest bit at place 63 gives the float nearest to it. -/
theorem isNearest_ofNat (hlow : 2 ^ 63 ≤ n) (hhigh : n < 2 ^ 64) : (ofNat n).IsNearest n := by
  refine ⟨_, toRat?_ofNat hlow hhigh, fun y s hy => ?_⟩
  have hmultiple (k : ℤ) :
      |((2048 * (roundHalfEven n 2048 : ℤ) : ℤ) : ℚ) - n| ≤ |2048 * (k : ℚ) - n| := by
    exact_mod_cast roundHalfEven_nearest n k
  rcases multiple_or_lt hy with ⟨k, rfl⟩ | hsmall
  · exact hmultiple k
  · -- between such a float and the number lies `2 ^ 63`, which is a multiple
    have hn : (2 ^ 63 : ℚ) ≤ n := by exact_mod_cast hlow
    refine (hmultiple (2 ^ 52)).trans ?_
    rw [abs_of_nonpos (by push_cast; linarith), abs_of_nonpos (by linarith)]
    push_cast
    linarith

end Binary64

end Listing.Number
