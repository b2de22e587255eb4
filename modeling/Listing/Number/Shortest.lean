import Listing.Number.Binary

namespace Listing.Number

/-!
# Shortest decimal of a binary number

A finite binary number owns the interval of reals that round to it.  Its shortest decimal is the
point of that interval on the coarsest decimal grid that meets it; of two such points the nearer,
and an exact tie is for the caller to break.

* `Interval.ofFloat` — the interval of a number, scaled to integers;
* `shortest` — the digits and the decimal exponent of the shortest decimal.
-/

/-- A decimal number `digits · 10 ^ exponent`. -/
structure Decimal where
  digits : Nat
  exponent : Int
  deriving DecidableEq, Repr

/-- How an exact tie between two decimals is broken. -/
inductive Tie
  | toEven
  | upward
  deriving DecidableEq, Repr

/-- The reals that round to `value / unit`, from `low / unit` to `high / unit`. -/
structure Interval where
  low : Nat
  value : Nat
  high : Nat
  unit : Nat
  closed : Bool

namespace Interval

/--
The interval of `units · 2 ^ scale`: half a gap to each side, the lower gap being half as wide when
`units` is the least significand of a binade above the first.
-/
def ofFloat (format : FloatFormat) (units : Nat) (scale : Int) : Interval :=
  let fine := scale - 2
  let up := 2 ^ fine.toNat
  let below := if units = 2 ^ format.fractionBits ∧ format.minScale < scale then 1 else 2
  { low := (4 * units - below) * up
    value := 4 * units * up
    high := (4 * units + 2) * up
    unit := 2 ^ (-fine).toNat
    closed := units % 2 == 0 }

/-- Whether `n · num / den` lies in the interval. -/
def meets (i : Interval) (n num den : Nat) : Bool :=
  let point := n * num * i.unit
  if i.closed then i.low * den ≤ point && point ≤ i.high * den
  else i.low * den < point && point < i.high * den

/-- The greatest `e` with `10 ^ e ≤ value / unit`, by search down from an upper bound. -/
def magnitude (i : Interval) : Int :=
  let upper : Int := (floorLog2 i.value i.unit * 30103) / 100000 + 1
  search i upper 4
where
  /-- Steps down from `e` until `10 ^ e` is not above the value. -/
  search (i : Interval) (e : Int) : Nat → Int
    | 0 => e
    | steps + 1 =>
      if i.unit * 10 ^ e.toNat ≤ i.value * 10 ^ (-e).toNat then e else search i (e - 1) steps

/-- The point of the grid `n · 10 ^ step` in the interval that is nearest to the value. -/
def onGrid (i : Interval) (tie : Tie) (step : Int) : Option Decimal :=
  let num := 10 ^ step.toNat
  let den := 10 ^ (-step).toNat
  let floor := i.value * den / (i.unit * num)
  let rest := 2 * (i.value * den % (i.unit * num))
  let nearer :=
    if rest < i.unit * num then floor
    else if i.unit * num < rest then floor + 1
    else match tie with
      | .upward => floor + 1
      | .toEven => floor + floor % 2
  -- if any point of the grid is in the interval, one of the value's two neighbours is
  let farther := if nearer = floor then floor + 1 else floor
  if i.meets nearer num den then some ⟨nearer, step⟩
  else if i.meets farther num den then some ⟨farther, step⟩
  else none

/-- The first hit among the grids of `count`, `count + 1`, … digits, at most `grids` of them. -/
def firstHit (i : Interval) (tie : Tie) (magnitude : Int) (count : Nat) : Nat → Decimal
  | 0 => ⟨0, 0⟩
  | grids + 1 =>
    match i.onGrid tie (magnitude + 1 - count) with
    | some d => d
    | none => firstHit i tie magnitude (count + 1) grids

end Interval

/-- The decimal without zeros at the end of its digits. -/
def Decimal.strip (d : Decimal) : Decimal :=
  go d (Nat.toDigits 10 d.digits).length
where
  /-- Drops at most as many zeros as there is room for. -/
  go (d : Decimal) : Nat → Decimal
    | 0 => d
    | room + 1 =>
      if d.digits ≠ 0 ∧ d.digits % 10 = 0 then go ⟨d.digits / 10, d.exponent + 1⟩ room else d

/-- The shortest decimal that rounds to `units · 2 ^ scale`; seventeen digits always suffice. -/
def shortest (format : FloatFormat) (tie : Tie) (units : Nat) (scale : Int) : Decimal :=
  if units = 0 then ⟨0, 0⟩
  else
    let i := Interval.ofFloat format units scale
    (i.firstHit tie i.magnitude 1 17).strip

/-- The shortest decimal of the value that some 64-bit pattern stands for. -/
example : shortest binary64 .toEven 0x1999999999999A (-56) = ⟨1, -1⟩ := by decide +kernel

example : shortest binary64 .toEven 1 (-1074) = ⟨5, -324⟩ := by decide +kernel

end Listing.Number
