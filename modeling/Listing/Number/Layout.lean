import Listing.Number.Shortest

namespace Listing.Number

/-!
# Layouts of decimal numbers

How a number is written: from which decimal exponents on it is positional, whether a whole number
keeps `.0`, how an exponent is signed.  The digits are always those of the shortest decimal.

* `Layout` — the decisions of one written form;
* `Layout.text` — the text of a 64-bit number in a layout;
* `intText` — the text of an integer.
-/

/-- The decisions of one written form of numbers. -/
structure Layout where
  /-- A number is positional when its decimal exponent is at least the first and below the second;
  without bounds it always is. -/
  positional : Option (Int × Int)
  /-- Whether a whole number in positional form ends in `.0`. -/
  wholePoint : Bool
  /-- Whether a positive exponent carries a plus sign. -/
  plusSign : Bool
  /-- How a tie between two shortest decimals is broken. -/
  tie : Tie

/-- The decimal digits of a natural number. -/
def natDigits (n : Nat) : List Char := Nat.toDigits 10 n

/-- The digits of an integer after a minus sign if it is negative. -/
def intDigits (n : Int) : List Char :=
  if n < 0 then '-' :: natDigits n.natAbs else natDigits n.natAbs

/-- The text of an integer. -/
def intText (n : Int) : String := String.ofList (intDigits n)

/-- The text of a natural number. -/
def natText (n : Nat) : String := String.ofList (natDigits n)

namespace Layout

/-- A decimal in positional form, its digits given apart. -/
def positionalText (layout : Layout) (digits : List Char) (exponent : Int) : List Char :=
  if 0 ≤ exponent then
    digits ++ List.replicate exponent.toNat '0' ++ (if layout.wholePoint then ['.', '0'] else [])
  else
    let places := (-exponent).toNat
    if places < digits.length then
      digits.take (digits.length - places) ++ '.' :: digits.drop (digits.length - places)
    else '0' :: '.' :: (List.replicate (places - digits.length) '0' ++ digits)

/-- A decimal with one digit before the point and an exponent. -/
def scientificText (layout : Layout) (digits : List Char) (power : Int) : List Char :=
  let rest := digits.drop 1
  digits.take 1 ++ (if rest.isEmpty then [] else '.' :: rest) ++
    'e' :: ((if layout.plusSign && 0 ≤ power then ['+'] else []) ++ intDigits power)

/-- A non-negative decimal. -/
def decimalText (layout : Layout) (d : Decimal) : List Char :=
  let digits := natDigits d.digits
  let power := d.exponent + digits.length - 1
  let positional := match layout.positional with
    | none => true
    | some (low, high) => d.digits == 0 || (low ≤ power && power < high)
  if positional then layout.positionalText digits d.exponent
  else layout.scientificText digits power

/-- The characters of a 64-bit number. -/
def chars (layout : Layout) (x : Binary64) : List Char :=
  match x.value with
  | .nan _ => "NaN".toList
  | .infinite negative => (if negative then ['-'] else []) ++ "inf".toList
  | .finite negative units scale =>
    (if negative then ['-'] else []) ++
      layout.decimalText (shortest binary64 layout.tie units scale)

/-- The text of a 64-bit number. -/
def text (layout : Layout) (x : Binary64) : String := String.ofList (layout.chars x)

end Layout

/-- Plain text: always positional, whole numbers without a point. -/
def plainLayout : Layout := ⟨none, false, false, .upward⟩

/-- Outlines: positional from `1e-4` to below `1e16`, whole numbers with `.0`. -/
def outlineLayout : Layout := ⟨some (-4, 16), true, false, .upward⟩

/-- Documents: positional from `1e-5` to below `1e16`, and a plus sign on other exponents. -/
def documentLayout : Layout := ⟨some (-5, 16), true, true, .toEven⟩

example : plainLayout.text (.ofRatio false 3 2) = "1.5" ∧ plainLayout.text (.ofNat 10) = "10" ∧
    plainLayout.text (.ofRatio true 0 1) = "-0" := by decide +kernel

example : outlineLayout.text (.ofNat (10 ^ 16)) = "1e16" ∧
    outlineLayout.text (.ofRatio false 1 100000) = "1e-5" ∧
    outlineLayout.text (.ofNat 1000) = "1000.0" := by decide +kernel

example : documentLayout.text (.ofNat (10 ^ 16)) = "1e+16" ∧
    documentLayout.text (.ofRatio false 1 100000) = "0.00001" ∧
    documentLayout.text (.ofRatio false 3 (2 * 10 ^ 10)) = "1.5e-10" := by decide +kernel

end Listing.Number
