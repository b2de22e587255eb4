import Listing.Number.Binary

namespace Listing.Number

/-!
# Reading numbers

Integers and floating-point numbers in the text form that a request supplies.

* `readInt64` — an optional sign and one or more digits, read left to right: the first character
  that is no digit, or that takes the value out of range, decides the error;
* `readBinary64` — digits with an optional point and exponent, or the name of an infinity or NaN,
  rounded once to the nearest number.
-/

/-- Why a text is no 64-bit integer. -/
inductive IntFault
  | empty
  | invalidDigit
  | tooLarge
  | tooSmall
  deriving DecidableEq, Repr

/-- The value of a decimal digit. -/
def digitValue? (c : Char) : Option Nat :=
  if c.isDigit then some (c.toNat - '0'.toNat) else none

/-- The value of a digit in base 16, of either case. -/
def hexDigitValue? (c : Char) : Option Nat :=
  if c.isDigit then some (c.toNat - '0'.toNat)
  else if 'a' ≤ c ∧ c ≤ 'f' then some (c.toNat - 'a'.toNat + 10)
  else if 'A' ≤ c ∧ c ≤ 'F' then some (c.toNat - 'A'.toNat + 10)
  else none

/-- Extends `acc` by decimal digits as long as it stays at most `limit`. -/
def readDigits (limit : Nat) (overflow : IntFault) : Nat → List Char → Except IntFault Nat
  | acc, [] => .ok acc
  | acc, c :: rest =>
    match digitValue? c with
    | none => .error .invalidDigit
    | some d =>
      if 10 * acc + d ≤ limit then readDigits limit overflow (10 * acc + d) rest
      else .error overflow

/-- The magnitude of a signed text: at least one digit, at most `limit`. -/
def readMagnitude (limit : Nat) (overflow : IntFault) : List Char → Except IntFault Nat
  | [] => .error .invalidDigit
  | c :: rest => readDigits limit overflow 0 (c :: rest)

/-- An integer of 64 bits with an optional sign. -/
def readInt64 : List Char → Except IntFault Int64
  | [] => .error .empty
  | '-' :: rest => (readMagnitude (2 ^ 63) .tooSmall rest).map fun n => Int64.ofInt (-(n : Int))
  | '+' :: rest => (readMagnitude (2 ^ 63 - 1) .tooLarge rest).map fun n => Int64.ofInt n
  | c :: rest => (readMagnitude (2 ^ 63 - 1) .tooLarge (c :: rest)).map fun n => Int64.ofInt n

/-- Why a text is no floating-point number. -/
inductive FloatFault
  | empty
  | invalid
  deriving DecidableEq, Repr

/-- The decimal digits at the start of a text, and what follows them. -/
def spanDigits (text : List Char) : List Char × List Char :=
  (text.takeWhile Char.isDigit, text.dropWhile Char.isDigit)

/-- The number that decimal digits denote. -/
def digitsToNat (digits : List Char) : Nat := Nat.ofDigitChars 10 digits 0

/--
The 64-bit number nearest to `digits · 10 ^ exponent`.  Beyond four hundred places on either side
the answer is infinity or zero, whatever the digits.
-/
def ofDecimal (negative : Bool) (digits : Nat) (exponent : Int) : Binary64 :=
  let power := exponent + (Nat.toDigits 10 digits).length
  if digits = 0 ∨ power < -400 then .ofRatio negative 0 1
  else if 400 < power then .ofValue (.infinite negative)
  else .ofRatio negative (digits * 10 ^ exponent.toNat) (10 ^ (-exponent).toNat)

/-- The exponent part of a decimal: none, or `e`, an optional sign and digits to the end. -/
def readExponent : List Char → Option Int
  | [] => some 0
  | e :: rest =>
    if e = 'e' ∨ e = 'E' then
      let (negative, digits) := match rest with
        | '-' :: digits => (true, digits)
        | '+' :: digits => (false, digits)
        | digits => (false, digits)
      if digits.isEmpty || !digits.all Char.isDigit then none
      else some (if negative then -(digitsToNat digits : Int) else digitsToNat digits)
    else none

/-- An unsigned decimal: digits on at least one side of an optional point, and an exponent. -/
def readDecimal (negative : Bool) (text : List Char) : Option Binary64 :=
  let (whole, rest) := spanDigits text
  let (places, rest) := match rest with
    | '.' :: rest => spanDigits rest
    | rest => ([], rest)
  if whole.isEmpty && places.isEmpty then none
  else (readExponent rest).map fun exponent =>
    ofDecimal negative (digitsToNat (whole ++ places)) (exponent - places.length)

/-- The name of an infinity or of NaN, in any case. -/
def readSpecial (negative : Bool) (text : List Char) : Option Binary64 :=
  let name := text.map Char.toLower
  if name = "inf".toList ∨ name = "infinity".toList then some (.ofValue (.infinite negative))
  else if name = "nan".toList then some (.ofValue (.nan negative))
  else none

/-- A floating-point number with an optional sign. -/
def readBinary64 (text : List Char) : Except FloatFault Binary64 :=
  match text with
  | [] => .error .empty
  | c :: rest =>
    let negative := c == '-'
    let body := if c = '-' ∨ c = '+' then rest else text
    match readDecimal negative body <|> readSpecial negative body with
    | some x => .ok x
    | none => .error .invalid

example : readInt64 "+7".toList = .ok 7 ∧ readInt64 "-".toList = .error .invalidDigit ∧
    readInt64 "9223372036854775808".toList = .error .tooLarge ∧
    readInt64 "-9223372036854775808".toList = .ok Int64.minValue := ⟨rfl, rfl, rfl, rfl⟩

example : readBinary64 "1e".toList = .error .invalid ∧
    (readBinary64 ".5".toList).toOption = some (.ofRatio false 1 2) ∧
    (readBinary64 "1e999".toList).toOption = some (.ofValue (.infinite false)) := by
  refine ⟨rfl, ?_, ?_⟩ <;> decide +kernel

end Listing.Number
