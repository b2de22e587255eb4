import Listing.Proofs.Number.Exact
import Listing.Proofs.Term.Bytes
import Listing.Term.Wire

namespace Listing.Term

/-!
# Floats in integer columns

A float that is a whole number binds to an integer column like that number.  On the way it becomes
an integer of 64 bits, and one that is out of range becomes the nearest of those.  Columns of two
and four bytes refuse that one as well; a column of eight bytes takes it.

* `Term.wholeInt64?_eq_some_iff` — the integer that a float becomes, by its exact value;
* `Term.toInt_clampInt64`, `Term.fits_clampInt64_iff` — which integers survive this;
* `Term.float_binds_whole` — what binds, to which bytes, and what fails;
* `Term.float_saturates` — the least whole number that binds as another one.
-/

open Number (Binary64 FloatValue)

variable {x : Binary64} {m : Int64} {n : ℤ} {width : Nat} {type : SqlType} {bytes : List UInt8}

/-! ### The integer of a float -/

/-- Clamping gives the nearest integer of 64 bits. -/
theorem toInt_clampInt64 (n : ℤ) :
    (clampInt64 n).toInt = max (-2 ^ 63 : ℤ) (min (2 ^ 63 - 1 : ℤ) n) := by
  rw [clampInt64, Int64.toInt_ofInt_of_le (by omega) (by omega)]
  omega

/-- A float becomes an integer exactly if it is a whole number, and then the nearest of 64 bits. -/
theorem wholeInt64?_eq_some_iff :
    wholeInt64? x = some m ↔ ∃ n : ℤ, x.toRat? = some (n : ℚ) ∧ clampInt64 n = m := by
  unfold wholeInt64? Binary64.toRat?
  cases x.value with
  | nan negative => simp [FloatValue.toRat?]
  | infinite negative => simp [FloatValue.toRat?]
  | finite negative units scale =>
    have hden : 0 < 2 ^ (-scale).toNat := Nat.pow_pos (by decide)
    simp only [FloatValue.toRat?_finite, Option.some_inj]
    generalize units * 2 ^ scale.toNat = num
    generalize 2 ^ (-scale).toNat = den at hden
    -- a quotient is whole whatever its sign, but division of naturals only knows one of them
    cases negative with
    | false =>
      simp only [Bool.false_eq_true, if_false, one_mul, Number.div_eq_intCast_iff hden]
      by_cases hrest : num % den = 0
      · simp [hrest]
      · simp [hrest]
    | true =>
      simp only [if_true, neg_mul, one_mul, neg_eq_iff_eq_neg]
      have hneg (n : ℤ) : (num / den : ℚ) = -(n : ℚ) ↔ num % den = 0 ∧ n = -(num / den : Nat) := by
        rw [← Int.cast_neg, Number.div_eq_intCast_iff hden, neg_eq_iff_eq_neg]
      simp only [hneg]
      by_cases hrest : num % den = 0
      · simp [hrest]
      · simp [hrest]

/-- What is out of range of a narrow column stays so; a column of eight bytes takes all of it. -/
theorem fits_clampInt64_iff (h : type.intWidth? = some width) :
    Bytes.Fits width (clampInt64 n).toInt ↔ Bytes.Fits width n ∨ type = .int8 := by
  have hclamp := toInt_clampInt64 n
  cases type <;> cases h
  case int2 => simp [Bytes.Fits]; omega
  case int4 => simp [Bytes.Fits]; omega
  case int8 => simp [fits_toInt]

/-- The integer that arrives is the one that was meant, or the bound that it is beyond. -/
theorem toInt_clampInt64_cases (n v : ℤ) :
    v = (clampInt64 n).toInt ↔
      Bytes.Fits 8 n ∧ v = n ∨ 2 ^ 63 ≤ n ∧ v = 2 ^ 63 - 1 ∨ n < -2 ^ 63 ∧ v = -2 ^ 63 := by
  rw [toInt_clampInt64, Bytes.Fits]
  omega

/-! ### Binding -/

/-- A float binds to an integer type as the integer that it is taken for, if it is whole. -/
theorem bindFloat_of_intWidth? (h : type.intWidth? = some width) :
    bindFloat x type = (wholeInt64? x).elim (.error (.noForm .float type)) (bindInt · type) := by
  cases type <;> cases h <;> unfold bindFloat <;> cases wholeInt64? x <;> rfl

/-- A whole float binds to the bytes of the clamped integer, and beyond the narrower types not at
all. -/
theorem bind_float_eq_ok_iff (h : type.intWidth? = some width) :
    bind type (.float x) = .ok (some bytes) ↔
      ∃ n : ℤ, x.toRat? = some (n : ℚ) ∧ (Bytes.Fits width n ∨ type = .int8) ∧
        bytes.length = width ∧ Bytes.toInt bytes = (clampInt64 n).toInt := by
  have hwhole : bindFloat x type = .ok bytes ↔
      ∃ m, wholeInt64? x = some m ∧ bindInt m type = .ok bytes := by
    rw [bindFloat_of_intWidth? h]
    cases wholeInt64? x <;> simp
  rw [bind, map_some_eq_ok_iff, hwhole]
  constructor
  · rintro ⟨m, hm, hbytes⟩
    obtain ⟨n, hn, rfl⟩ := wholeInt64?_eq_some_iff.mp hm
    rw [bindInt_eq_ok_iff h, fits_clampInt64_iff h] at hbytes
    exact ⟨n, hn, hbytes⟩
  · rintro ⟨n, hn, hbytes⟩
    refine ⟨clampInt64 n, wholeInt64?_eq_some_iff.mpr ⟨n, hn, rfl⟩, ?_⟩
    rwa [bindInt_eq_ok_iff h, fits_clampInt64_iff h]

/-- The bytes of a whole number that binds spell it, or the bound that it is beyond. -/
theorem bound_or_saturated (h : type.intWidth? = some width) {v : ℤ} :
    (Bytes.Fits width n ∨ type = .int8) ∧ v = (clampInt64 n).toInt ↔
      Bytes.Fits width n ∧ v = n ∨ type = .int8 ∧ 2 ^ 63 ≤ n ∧ v = 2 ^ 63 - 1 ∨
        type = .int8 ∧ n < -2 ^ 63 ∧ v = -2 ^ 63 := by
  rw [toInt_clampInt64_cases]
  constructor
  · rintro ⟨hfits | rfl, hv⟩
    -- a number in range of the column is one of 64 bits, and is not clamped
    · have height := SqlType.fits_of_intWidth? h hfits
      rw [Bytes.Fits] at height
      exact .inl ⟨hfits, by omega⟩
    · cases h
      rcases hv with ⟨hfits, hv⟩ | hv | hv
      · exact .inl ⟨hfits, hv⟩
      · exact .inr (.inl ⟨rfl, hv⟩)
      · exact .inr (.inr ⟨rfl, hv⟩)
  · rintro (⟨hfits, hv⟩ | ⟨rfl, hv⟩ | ⟨rfl, hv⟩)
    · exact ⟨.inl hfits, .inl ⟨SqlType.fits_of_intWidth? h hfits, hv⟩⟩
    · exact ⟨.inr rfl, .inr (.inl hv)⟩
    · exact ⟨.inr rfl, .inr (.inr hv)⟩

/-- A whole number that binds has bytes, so a float fails only if it is none of these. -/
theorem bind_float_error_iff (h : type.intWidth? = some width) :
    (∃ e, bind type (.float x) = .error e) ↔
      ∀ n : ℤ, x.toRat? = some (n : ℚ) → ¬ (Bytes.Fits width n ∨ type = .int8) := by
  have hsome : float x ≠ .null := nofun
  rw [bind_error_iff hsome]
  simp only [ne_eq, bind_float_eq_ok_iff h]
  constructor
  · intro hnone n hn hbinds
    have hfits := (fits_clampInt64_iff h).mpr hbinds
    exact hnone _ ⟨n, hn, hbinds, Bytes.length_ofInt width _,
      Bytes.toInt_ofInt (SqlType.width_pos_of_intWidth? h) hfits⟩
  · rintro hnone bytes ⟨n, hn, hbinds, -⟩
    exact hnone n hn hbinds

/-- A natural number beyond 64-bit integers arrives as a float that is out of range. -/
theorem exists_decode_large (k : UInt64) (beyond : 2 ^ 63 ≤ k.toNat) :
    ∃ (y : Binary64) (n : ℤ), decode (.num (.large k beyond)) = .ok (.float y) ∧
      y.toRat? = some (n : ℚ) ∧ 2 ^ 63 ≤ n := by
  refine ⟨_, _, rfl, Binary64.toRat?_ofNat beyond k.toNat_lt, ?_⟩
  have hunits := (Binary64.roundHalfEven_bounds beyond k.toNat_lt).1
  omega

/-- **Whole floats bind.** To an integer column (`SqlType.intWidth?`) a float binds exactly if it is
a whole number in the range of the column (`Bytes.Fits`), and then the bytes spell it; all other
floats fail.  Only to a column of eight bytes every whole number binds, one out of range as the
bound that it is beyond; among these are the numbers of a document that are too large for an
integer. -/
theorem float_binds_whole (h : type.intWidth? = some width) :
    (∀ (x : Binary64) bytes, bind type (.float x) = .ok (some bytes) ↔
      ∃ n : ℤ, x.toRat? = some (n : ℚ) ∧ bytes.length = width ∧
        (Bytes.Fits width n ∧ Bytes.toInt bytes = n ∨
          type = .int8 ∧ 2 ^ 63 ≤ n ∧ Bytes.toInt bytes = 2 ^ 63 - 1 ∨
          type = .int8 ∧ n < -2 ^ 63 ∧ Bytes.toInt bytes = -2 ^ 63)) ∧
    (∀ x : Binary64, (∃ e, bind type (.float x) = .error e) ↔
      ∀ n : ℤ, x.toRat? = some (n : ℚ) → ¬ Bytes.Fits width n ∧ type ≠ .int8) ∧
    ∀ (k : UInt64) (beyond : 2 ^ 63 ≤ k.toNat), ∃ (y : Binary64) (n : ℤ),
      decode (.num (.large k beyond)) = .ok (.float y) ∧ y.toRat? = some (n : ℚ) ∧ 2 ^ 63 ≤ n := by
  refine ⟨fun x bytes => ?_, fun x => ?_, exists_decode_large⟩
  · rw [bind_float_eq_ok_iff h]
    refine exists_congr fun n => and_congr_right fun _ => ?_
    rw [and_left_comm, bound_or_saturated h]
  · rw [bind_float_error_iff h]
    simp only [not_or, ne_eq]

/-- The least integer of two bytes arrives from a float. -/
theorem float_binds_whole_least :
    SqlType.int2.intWidth? = some 2 ∧ (⟨0xC0E0000000000000⟩ : Binary64).toRat? = some (-32768) ∧
      bind .int2 (.float ⟨0xC0E0000000000000⟩) = .ok (some [0x80, 0x00]) := by
  have hexact : (⟨0xC0E0000000000000⟩ : Binary64).toRat? = some ((-32768 : ℤ) : ℚ) := by
    have hvalue : (⟨0xC0E0000000000000⟩ : Binary64).value = .finite true (2 ^ 52) (-37) := by
      decide +kernel
    rw [Binary64.toRat?, hvalue, FloatValue.toRat?]
    norm_num
  have hwidth : SqlType.int2.intWidth? = some 2 := rfl
  refine ⟨hwidth, by simpa using hexact, ?_⟩
  exact ((float_binds_whole hwidth).1 _ _).mpr ⟨-32768, hexact, rfl, .inl ⟨by decide, by decide⟩⟩

/-- **Floats saturate.** One more than the greatest integer binds as the greatest:  `2 ^ 63` is out
of range. -/
theorem float_saturates :
    (⟨0x43E0000000000000⟩ : Binary64).toRat? = some ((2 ^ 63 : ℤ) : ℚ) ∧
      ¬ Bytes.Fits 8 (2 ^ 63) ∧
      bind .int8 (.float ⟨0x43E0000000000000⟩) =
        .ok (some [0x7f, 0xff, 0xff, 0xff, 0xff, 0xff, 0xff, 0xff]) ∧
      Bytes.toInt [0x7f, 0xff, 0xff, 0xff, 0xff, 0xff, 0xff, 0xff] = 2 ^ 63 - 1 := by
  refine ⟨?_, by decide, ?_, by decide⟩
  · have hvalue : (⟨0x43E0000000000000⟩ : Binary64).value = .finite false (2 ^ 52) 11 := by
      decide +kernel
    rw [Binary64.toRat?, hvalue, FloatValue.toRat?]
    norm_num
  · decide +kernel

end Listing.Term
