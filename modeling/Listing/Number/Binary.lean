namespace Listing.Number

/-!
# Binary floating-point numbers

The binary interchange formats of 32 and 64 bits, held as their bits and read as exact numbers
`± units · 2 ^ scale`.  Every operation here is exact arithmetic followed by one rounding to the
nearest number of the format, a tie going to the even one, so nothing depends on a machine's
floating-point unit.

* `FloatFormat.decode` — the number, infinity or NaN that some bits stand for;
* `FloatFormat.nearest` — the bits of the number nearest to a quotient;
* `Binary64`, `Binary32` — the two formats as types, with the conversions between them;
* `Binary64.sameValue` — equality of numbers: zeros of both signs agree, a NaN differs from itself.
-/

/-- Powers of natural numbers, chosen before any other notion of a power that is in scope. -/
@[default_instance 10000]
instance (priority := 10000) powNat : Pow Nat Nat := ⟨Nat.pow⟩

/-- A binary interchange format, by the number of its fraction and exponent bits. -/
structure FloatFormat where
  fractionBits : Nat
  exponentBits : Nat

/-- The format of 64 bits. -/
def binary64 : FloatFormat := ⟨52, 11⟩

/-- The format of 32 bits. -/
def binary32 : FloatFormat := ⟨23, 8⟩

/-- What the bits of a floating-point number stand for; a finite number is `± units · 2 ^ scale`. -/
inductive FloatValue
  | nan (negative : Bool)
  | infinite (negative : Bool)
  | finite (negative : Bool) (units : Nat) (scale : Int)
  deriving DecidableEq, Repr

/-- The quotient rounded to the nearest natural number, a tie to the even one. -/
def roundHalfEven (num den : Nat) : Nat :=
  let floor := num / den
  let rest := 2 * (num % den)
  if rest < den then floor else if den < rest then floor + 1 else floor + floor % 2

/-- The greatest `l` with `2 ^ l ≤ num / den`, for positive `num` and `den`. -/
def floorLog2 (num den : Nat) : Int :=
  let guess : Int := (num.log2 : Int) - (den.log2 : Int)
  if den * 2 ^ guess.toNat ≤ num * 2 ^ (-guess).toNat then guess else guess - 1

namespace FloatFormat

variable (format : FloatFormat)

/-- The scale of the subnormal numbers, the least of the format. -/
def minScale : Int := 2 - (2 ^ (format.exponentBits - 1) : Nat) - format.fractionBits

/-- The exponent field of infinities and NaNs. -/
def topExponent : Nat := 2 ^ format.exponentBits - 1

/-- The bits of positive infinity. -/
def infinityBits : Nat := format.topExponent * 2 ^ format.fractionBits

/-- The weight of the sign bit. -/
def signWeight : Nat := 2 ^ (format.fractionBits + format.exponentBits)

/-- What the bits stand for. -/
def decode (bits : Nat) : FloatValue :=
  let negative := bits / format.signWeight % 2 == 1
  let fraction := bits % 2 ^ format.fractionBits
  let exponent := bits / 2 ^ format.fractionBits % 2 ^ format.exponentBits
  if exponent = format.topExponent then
    if fraction = 0 then .infinite negative else .nan negative
  else if exponent = 0 then .finite negative fraction format.minScale
  else .finite negative (2 ^ format.fractionBits + fraction) (format.minScale + exponent - 1)

/-- The bits of the non-negative number nearest to `num / den`, infinity beyond the greatest. -/
def nearest (num den : Nat) : Nat :=
  if num = 0 then 0
  else
    -- below the normal numbers the scale stays, and the units lose digits instead
    let scale := max format.minScale (floorLog2 num den - format.fractionBits)
    let units := roundHalfEven (num * 2 ^ (-scale).toNat) (den * 2 ^ scale.toNat)
    -- a carry out of the fraction runs into the exponent, which is the next number up
    min format.infinityBits ((scale - format.minScale).toNat * 2 ^ format.fractionBits + units)

/-- The bits of a value; a NaN is the quiet one with no further payload. -/
def encode : FloatValue → Nat
  | .nan negative =>
    sign negative + format.infinityBits + 2 ^ (format.fractionBits - 1)
  | .infinite negative => sign negative + format.infinityBits
  | .finite negative units scale =>
    sign negative + format.nearest (units * 2 ^ scale.toNat) (2 ^ (-scale).toNat)
where
  /-- The sign bit, with its weight. -/
  sign (negative : Bool) : Nat := if negative then format.signWeight else 0

end FloatFormat

/-! ### The two formats as types -/

/-- A number of the 64-bit format, by its bits. -/
structure Binary64 where
  bits : UInt64
  deriving DecidableEq, Repr

/-- A number of the 32-bit format, by its bits. -/
structure Binary32 where
  bits : UInt32
  deriving DecidableEq, Repr

namespace Binary64

/-- The number that the bits stand for. -/
def value (x : Binary64) : FloatValue := binary64.decode x.bits.toNat

/-- The 64-bit number nearest to a value. -/
def ofValue (v : FloatValue) : Binary64 := ⟨UInt64.ofNat (binary64.encode v)⟩

/-- The 64-bit number nearest to `± num / den`. -/
def ofRatio (negative : Bool) (num den : Nat) : Binary64 :=
  ⟨UInt64.ofNat (FloatFormat.encode.sign binary64 negative + binary64.nearest num den)⟩

/-- The 64-bit number nearest to a natural number. -/
def ofNat (n : Nat) : Binary64 := ofRatio false n 1

/-- The 64-bit number nearest to an integer. -/
def ofInt (n : Int) : Binary64 := ofRatio (n < 0) n.natAbs 1

/-- The number with the opposite sign. -/
def neg (x : Binary64) : Binary64 := ⟨x.bits ^^^ 0x8000000000000000⟩

/-- Whether the number is neither an infinity nor a NaN. -/
def isFinite (x : Binary64) : Bool :=
  match x.value with
  | .finite .. => true
  | _ => false

/-- Whether both are the same number; zeros of both signs are, a NaN is no number. -/
def sameValue (x y : Binary64) : Bool :=
  match x.value, y.value with
  | .nan _, _ => false
  | _, .nan _ => false
  | .finite _ 0 _, .finite _ 0 _ => true
  | _, _ => x.bits == y.bits

/-- The exact product of two finite positive numbers, rounded once. -/
def mul (x y : Binary64) : Binary64 :=
  match x.value, y.value with
  | .finite s m e, .finite t n f =>
    let scale := e + f
    ofRatio (s != t) (m * n * 2 ^ scale.toNat) (2 ^ (-scale).toNat)
  | v, _ => ofValue v

/-- The exact quotient of two finite numbers, the second not zero, rounded once. -/
def div (x y : Binary64) : Binary64 :=
  match x.value, y.value with
  | .finite s m e, .finite t n f =>
    let scale := e - f
    ofRatio (s != t) (m * 2 ^ scale.toNat) (n * 2 ^ (-scale).toNat)
  | v, _ => ofValue v

end Binary64

namespace Binary32

/-- The 32-bit number nearest to a value. -/
def ofValue (v : FloatValue) : Binary32 := ⟨UInt32.ofNat (binary32.encode v)⟩

/-- The 32-bit number nearest to an integer. -/
def ofInt (n : Int) : Binary32 := ofValue (.finite (n < 0) n.natAbs 0)

end Binary32

example : (Binary64.ofRatio false 1 10).bits = 0x3FB999999999999A := by decide +kernel

example : (Binary64.ofInt (-3)).bits = 0xC008000000000000 := by decide +kernel

example : (Binary64.ofRatio false 1 (2 ^ 1075)).bits = 0 ∧
    (Binary64.ofRatio false 3 (2 ^ 1075)).bits = 2 := by decide +kernel

example : Binary64.value ⟨0x3FF8000000000000⟩ = .finite false (3 * 2 ^ 51) (-52) := by
  decide +kernel

end Listing.Number
