import Listing.Term.Bind
import Mathlib.Tactic.Ring

namespace Listing

/-!
# Integers as bytes

What bytes in two's complement stand for, and which integers have a form in how many of them.

* `Bytes.toNat`, `Bytes.toInt` — the number that bytes spell, without and with a sign;
* `Bytes.Fits` — the integers that some bytes can spell;
* `Bytes.eq_ofInt_iff` — the written bytes of an integer that fits are the only ones that spell it;
* `Term.bindWidth_eq_ok_iff` — an integer binds to a column of some width exactly if it fits.
-/

namespace Bytes

variable {width n : Nat} {m : Int} {bytes : List UInt8}

/-- The natural number that bytes spell, the most significant first. -/
def toNat : List UInt8 → Nat
  | [] => 0
  | b :: rest => b.toNat * 256 ^ rest.length + toNat rest

/-- The integer that bytes spell in two's complement: the upper half of the numbers is negative. -/
def toInt (bytes : List UInt8) : Int :=
  if 2 * toNat bytes < 256 ^ bytes.length then toNat bytes
  else toNat bytes - (256 ^ bytes.length : Nat)

/-- Whether an integer is in the range of `width` bytes. -/
def Fits (width : Nat) (n : Int) : Prop :=
  -(2 ^ (8 * width - 1) : Nat) ≤ n ∧ n < (2 ^ (8 * width - 1) : Nat)

instance : Decidable (Fits width m) := inferInstanceAs (Decidable (_ ∧ _))

/-- A number is written in as many bytes as are asked for. -/
@[simp] theorem length_ofNat (width n : Nat) : (ofNat width n).length = width := by
  induction width with
  | zero => rfl
  | succ width ih => rw [ofNat, List.length_cons, ih]

/-- So is an integer. -/
@[simp] theorem length_ofInt (width : Nat) (n : Int) : (ofInt width n).length = width :=
  length_ofNat width _

/-- Bytes spell what is left of the number that they are the lowest bytes of. -/
@[simp] theorem toNat_ofNat (width n : Nat) : toNat (ofNat width n) = n % 256 ^ width := by
  induction width with
  | zero => simp [ofNat, toNat, Nat.mod_one]
  | succ width ih =>
    have hweight : 256 ^ (width + 1) = 256 ^ width * 256 := pow_succ 256 width
    rw [ofNat, toNat, length_ofNat, ih, UInt8.toNat_ofNat', hweight, Nat.mod_mul, Nat.add_comm,
      Nat.mul_comm]

/-- Bytes hold a number below the power of 256 of their length. -/
theorem toNat_lt (bytes : List UInt8) : toNat bytes < 256 ^ bytes.length := by
  induction bytes with
  | nil => simp [toNat]
  | cons b rest ih =>
    have hb : b.toNat + 1 ≤ 256 := b.toNat_lt
    calc toNat (b :: rest) < b.toNat * 256 ^ rest.length + 256 ^ rest.length :=
          Nat.add_lt_add_left ih _
      _ = (b.toNat + 1) * 256 ^ rest.length := by ring
      _ ≤ 256 * 256 ^ rest.length := Nat.mul_le_mul_right _ hb
      _ = 256 ^ (b :: rest).length := by rw [List.length_cons, Nat.pow_succ, Nat.mul_comm]

/-- The lowest bytes of a number are those that spell what it leaves. -/
theorem ofNat_eq_of_mod_eq (h : n % 256 ^ bytes.length = toNat bytes) :
    ofNat bytes.length n = bytes := by
  induction bytes generalizing n with
  | nil => rfl
  | cons b rest ih =>
    have hrest := toNat_lt rest
    have hsplit : n / 256 ^ rest.length % 256 * 256 ^ rest.length + n % 256 ^ rest.length =
        b.toNat * 256 ^ rest.length + toNat rest := by
      rw [← toNat, ← h, List.length_cons, Nat.pow_succ, Nat.mod_mul, Nat.add_comm, Nat.mul_comm]
    -- the lower parts are both below the weight of the first byte
    have hlower : n % 256 ^ rest.length = toNat rest := by
      have := congrArg (· % 256 ^ rest.length) hsplit
      simpa [Nat.mul_add_mod_of_lt, Nat.add_mod, Nat.mod_eq_of_lt hrest] using this
    have hfirst : n / 256 ^ rest.length % 256 = b.toNat := by
      rw [hlower] at hsplit
      exact Nat.eq_of_mul_eq_mul_right (Nat.pow_pos (by decide)) (Nat.add_right_cancel hsplit)
    rw [List.length_cons, ofNat, ih hlower]
    congr 1
    exact UInt8.toNat_inj.mp (by rw [UInt8.toNat_ofNat', hfirst])

/-! ### Two's complement -/

/-- The numbers of `width` bytes are twice as many as those below the sign. -/
theorem two_mul_bound (hwidth : 0 < width) : 2 * 2 ^ (8 * width - 1) = 256 ^ width := by
  have hbits : 8 * width - 1 + 1 = 8 * width := by omega
  calc 2 * 2 ^ (8 * width - 1) = 2 ^ (8 * width - 1 + 1) := (pow_succ' 2 _).symm
    _ = (2 ^ 8) ^ width := by rw [hbits, pow_mul]

/-- The written bytes of an integer that fits spell it. -/
theorem toInt_ofInt (hwidth : 0 < width) (h : Fits width m) : toInt (ofInt width m) = m := by
  have hbound := two_mul_bound hwidth
  obtain ⟨hlow, hhigh⟩ := h
  have hspelled : (toNat (ofInt width m) : Int) = m % (256 ^ width : Nat) := by
    have hpos : 0 < 256 ^ width := Nat.pow_pos (by decide)
    have hnonneg : 0 ≤ m % (256 ^ width : Nat) := Int.emod_nonneg _ (by omega)
    have hlt : m % (256 ^ width : Nat) < (256 ^ width : Nat) := Int.emod_lt_of_pos _ (by omega)
    rw [ofInt, toNat_ofNat, Nat.mod_eq_of_lt (by omega)]
    omega
  rw [toInt, length_ofInt]
  -- below zero the remainder is the integer and the number of all bytes together
  rcases Int.lt_or_le m 0 with hneg | hnonneg
  · have hwrapped : m % (256 ^ width : Nat) = m + (256 ^ width : Nat) := by
      rw [← Int.add_emod_right]
      exact Int.emod_eq_of_lt (by omega) (by omega)
    rw [if_neg (by omega)]
    omega
  · rw [Int.emod_eq_of_lt hnonneg (by omega)] at hspelled
    rw [if_pos (by omega), hspelled]

/-- Bytes are the written bytes of the integer that they spell. -/
theorem ofInt_toInt (bytes : List UInt8) : ofInt bytes.length (toInt bytes) = bytes := by
  have hlt := toNat_lt bytes
  refine ofNat_eq_of_mod_eq ?_
  have hspelled : toInt bytes % (256 ^ bytes.length : Nat) = toNat bytes := by
    rw [toInt]
    split
    · exact Int.emod_eq_of_lt (by omega) (by omega)
    · rw [Int.sub_emod_right]
      exact Int.emod_eq_of_lt (by omega) (by omega)
  rw [hspelled, Int.toNat_natCast, Nat.mod_eq_of_lt hlt]

/-- The written bytes of an integer that fits are the only ones that spell it. -/
theorem eq_ofInt_iff (hwidth : 0 < width) (h : Fits width m) :
    bytes = ofInt width m ↔ bytes.length = width ∧ toInt bytes = m := by
  constructor
  · rintro rfl
    exact ⟨length_ofInt width m, toInt_ofInt hwidth h⟩
  · rintro ⟨rfl, rfl⟩
    exact (ofInt_toInt bytes).symm

end Bytes

/-! ### Integers in columns -/

namespace SqlType

variable {type : SqlType} {width : Nat}

/-- An integer type has one byte at least. -/
theorem width_pos_of_intWidth? (h : type.intWidth? = some width) : 0 < width := by
  cases type <;> cases h <;> decide

/-- No integer type holds more than an integer of 64 bits. -/
theorem fits_of_intWidth? (h : type.intWidth? = some width) {n : Int} (hn : Bytes.Fits width n) :
    Bytes.Fits 8 n := by
  obtain ⟨hlow, hhigh⟩ := hn
  cases type <;> cases h <;> constructor <;> omega

end SqlType

namespace Term

variable {width : Nat} {n : Int64} {type : SqlType} {bytes : List UInt8}

/-- Every integer of 64 bits fits eight bytes. -/
theorem fits_toInt (n : Int64) : Bytes.Fits 8 n.toInt := ⟨n.le_toInt, n.toInt_lt⟩

/-- An integer binds to a width exactly if it fits, and to its bytes. -/
theorem bindWidth_eq_ok_iff :
    bindWidth width n = .ok bytes ↔
      Bytes.Fits width n.toInt ∧ bytes = Bytes.ofInt width n.toInt := by
  unfold bindWidth Bytes.Fits
  simp only
  split
  · exact ⟨nofun, fun h => by omega⟩
  · split
    · exact ⟨nofun, fun h => by omega⟩
    · constructor
      · rintro ⟨⟩
        exact ⟨by omega, rfl⟩
      · rintro ⟨-, rfl⟩
        rfl

/-- An integer binds to an integer type in the width of the type. -/
theorem bindInt_of_intWidth? (h : type.intWidth? = some width) :
    bindInt n type = bindWidth width n := by
  cases type <;> cases h <;> rfl

/-- An integer binds to an integer column exactly if it fits, as the bytes that spell it. -/
theorem bindInt_eq_ok_iff (h : type.intWidth? = some width) :
    bindInt n type = .ok bytes ↔
      Bytes.Fits width n.toInt ∧ bytes.length = width ∧ Bytes.toInt bytes = n.toInt := by
  rw [bindInt_of_intWidth? h, bindWidth_eq_ok_iff]
  exact and_congr_right fun hn => Bytes.eq_ofInt_iff (SqlType.width_pos_of_intWidth? h) hn

variable {t : Term}

/-- Only null has no bytes. -/
theorem bind_ne_ok_none (ht : t ≠ .null) : bind type t ≠ .ok none := by
  have hmap (x : Except BindError (List UInt8)) : x.map some ≠ .ok none := by
    cases x <;> simp [Except.map]
  cases t with
  | null => exact absurd rfl ht
  | bool b =>
    rw [bind]
    split <;> simp
  | int n => exact hmap _
  | float x => exact hmap _
  | text s => exact hmap _
  | list items => simp [bind]

/-- A term that is not null has bytes or fails. -/
theorem bind_error_iff (ht : t ≠ .null) :
    (∃ e, bind type t = .error e) ↔ ∀ bytes, bind type t ≠ .ok (some bytes) := by
  have hnone : bind type t ≠ .ok none := bind_ne_ok_none ht
  cases hbind : bind type t with
  | error e => simp
  | ok form =>
    cases form with
    | none => exact absurd hbind hnone
    | some bytes => simp

/-- A value that is never null is bound exactly if its bytes are. -/
theorem map_some_eq_ok_iff {x : Except BindError (List UInt8)} :
    x.map some = .ok (some bytes) ↔ x = .ok bytes := by cases x <;> simp [Except.map]

/-- The bytes of a bound integer have the width of the type and hold the integer. -/
theorem bind_int_eq_ok_iff (h : type.intWidth? = some width) :
    bind type (.int n) = .ok (some bytes) ↔
      Bytes.Fits width n.toInt ∧ bytes.length = width ∧ Bytes.toInt bytes = n.toInt := by
  rw [bind, map_some_eq_ok_iff, bindInt_eq_ok_iff h]

end Term

end Listing
