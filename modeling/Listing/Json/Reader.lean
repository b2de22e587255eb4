import Listing.Json.Basic
import Listing.Number.Reader

namespace Listing.Json.Reader

/-!
# Reading documents

A total reader of documents.  Of a key that is repeated in an object the first place and the last
value are kept.

* `number` — a number without fraction and exponent is an integer when it fits 64 bits; any other
  is a float, whose significand is the run of leading digits that fit 64 bits, rounded to a float
  and then scaled by one power of ten;
* `string` — a string with its escapes;
* `Json.read?` — a document that takes up the whole text.
-/

open Number

/-- The text after the blanks at its start. -/
def skipBlanks (text : List Char) : List Char :=
  text.dropWhile fun c => c == ' ' || c == '\n' || c == '\t' || c == '\r'

/-! ### Numbers -/

/-- Extends `acc` by digits while it stays below `2 ^ 64`; also the number of digits left out. -/
def fitting : Nat → List Char → Nat × Nat
  | acc, [] => (acc, 0)
  | acc, c :: rest =>
    let next := 10 * acc + (digitValue? c).getD 0
    if next < 2 ^ 64 then fitting next rest else (acc, rest.length + 1)

/-- The float of a power of ten. -/
def tenTo (n : Nat) : Binary64 := Binary64.ofNat (10 ^ n)

/--
Scales a float by a power of ten in one step, or below `10 ^ -308` in several.  There is none when
the result is too large.
-/
def scale (x : Binary64) (exponent : Int) : Nat → Option Binary64
  | 0 => some x
  | steps + 1 =>
    if x.bits = 0 then some x
    else if 308 < exponent then none
    else if 0 ≤ exponent then
      let scaled := x.mul (tenTo exponent.toNat)
      if scaled.isFinite then some scaled else none
    else if -308 ≤ exponent then some (x.div (tenTo (-exponent).toNat))
    else scale (x.div (tenTo 308)) (exponent + 308) steps

/-- The float of a significand and an exponent of ten, with its sign. -/
def scaled (negative : Bool) (significand : Nat) (exponent : Int) : Option Binary64 :=
  (scale (Binary64.ofNat significand) exponent 4).map fun x => if negative then x.neg else x

/-- A number without fraction and exponent. -/
def whole (negative : Bool) (n : Nat) : JsonNumber :=
  if negative then
    -- minus zero is a float, since integers have one zero only
    if n = 0 ∨ 2 ^ 63 < n then .float (Binary64.ofNat n).neg else .int (Int64.ofInt (-(n : Int)))
  else .ofUInt64 (UInt64.ofNat n)

/-- Digits after a point, or none. -/
def places : List Char → Option (List Char × List Char)
  | '.' :: rest =>
    let (digits, rest) := spanDigits rest
    if digits.isEmpty then none else some (digits, rest)
  | rest => some ([], rest)

/-- An exponent with an optional sign, or none. -/
def exponent : List Char → Option (Option Int × List Char)
  | [] => some (none, [])
  | e :: rest =>
    if e = 'e' ∨ e = 'E' then
      let (negative, rest) := match rest with
        | '-' :: rest => (true, rest)
        | '+' :: rest => (false, rest)
        | rest => (false, rest)
      let (digits, rest) := spanDigits rest
      if digits.isEmpty then none
      else
        let n : Int := digitsToNat digits
        some (some (if negative then -n else n), rest)
    else some (none, e :: rest)

/-- An unsigned number; a zero at its start stands alone before the point. -/
def unsigned (negative : Bool) (text : List Char) : Option (JsonNumber × List Char) := do
  let (digits, rest) := spanDigits text
  if digits.isEmpty || (digits.head? == some '0' && 1 < digits.length) then none
  else
    let (decimals, rest) ← places rest
    let (power, rest) ← exponent rest
    let (high, beyond) := fitting 0 digits
    -- digits after the point go on filling the significand, even if some before it did not fit
    let (significand, left) := fitting high decimals
    if decimals.isEmpty && power.isNone && beyond == 0 then some (whole negative high, rest)
    else
      let shift : Int := (beyond : Int) + left - decimals.length
      let x ← scaled negative significand (shift + power.getD 0)
      some (.float x, rest)

/-- A number with an optional minus sign. -/
def number : List Char → Option (JsonNumber × List Char)
  | '-' :: rest => unsigned true rest
  | rest => unsigned false rest

/-! ### Strings -/

/-- A 16-bit unit by its four digits. -/
def unit (a b c d : Char) : Option Nat := do
  let a ← hexDigitValue? a
  let b ← hexDigitValue? b
  let c ← hexDigitValue? c
  let d ← hexDigitValue? d
  return ((a * 16 + b) * 16 + c) * 16 + d

/-- The character of a two-character escape. -/
def escaped : Char → Option Char
  | '"' => some '"'
  | '\\' => some '\\'
  | '/' => some '/'
  | 'b' => some '\x08'
  | 'f' => some '\x0c'
  | 'n' => some '\n'
  | 'r' => some '\r'
  | 't' => some '\t'
  | _ => none

/-- The first character of a string body, escapes resolved, and the text after it. -/
def stringChar : List Char → Option (Char × List Char)
  | '\\' :: 'u' :: a :: b :: c :: d :: rest => do
    let high ← unit a b c d
    if 0xDC00 ≤ high ∧ high < 0xE000 then none
    else if 0xD800 ≤ high ∧ high < 0xDC00 then
      match rest with
      | '\\' :: 'u' :: a :: b :: c :: d :: rest => do
        let low ← unit a b c d
        if 0xDC00 ≤ low ∧ low < 0xE000 then
          some (Char.ofNat (0x10000 + (high - 0xD800) * 0x400 + (low - 0xDC00)), rest)
        else none
      | _ => none
    else some (Char.ofNat high, rest)
  | '\\' :: c :: rest => (escaped c).map fun c => (c, rest)
  | c :: rest => if c.toNat < 0x20 then none else some (c, rest)
  | [] => none

/-- The body of a string up to its closing quote, by at most `fuel` characters. -/
def stringBody : Nat → List Char → Option (List Char × List Char)
  | _, '"' :: rest => some ([], rest)
  | 0, _ => none
  | fuel + 1, text => do
    let (c, rest) ← stringChar text
    let (body, rest) ← stringBody fuel rest
    return (c :: body, rest)

/-- A string after its opening quote. -/
def string (text : List Char) : Option (String × List Char) :=
  (stringBody text.length text).map fun (body, rest) => (String.ofList body, rest)

/-! ### Documents -/

/-- What follows a word at the start of a text. -/
def afterWord (word : String) (text : List Char) : Option (List Char) :=
  if word.toList.isPrefixOf text then some (text.drop word.length) else none

mutual

/-- A document at the start of a text, after blanks. -/
def document : Nat → List Char → Option (Json × List Char)
  | 0, _ => none
  | fuel + 1, text =>
    match skipBlanks text with
    | '"' :: rest => (string rest).map fun (s, rest) => (.str s, rest)
    | '[' :: rest =>
      match skipBlanks rest with
      | ']' :: rest => some (.arr [], rest)
      | rest => (items fuel rest).map fun (items, rest) => (.arr items, rest)
    | '{' :: rest =>
      match skipBlanks rest with
      | '}' :: rest => some (.obj [], rest)
      | rest => (fields fuel rest).map fun (fields, rest) => (.obj (Dict.ofEntries fields), rest)
    | 'n' :: rest => (afterWord "ull" rest).map fun rest => (.null, rest)
    | 't' :: rest => (afterWord "rue" rest).map fun rest => (.bool true, rest)
    | 'f' :: rest => (afterWord "alse" rest).map fun rest => (.bool false, rest)
    | rest => (number rest).map fun (n, rest) => (.num n, rest)

/-- The items of a list, up to its closing bracket. -/
def items : Nat → List Char → Option (List Json × List Char)
  | 0, _ => none
  | fuel + 1, text => do
    let (item, rest) ← document fuel text
    match skipBlanks rest with
    | ',' :: rest =>
      let (more, rest) ← items fuel rest
      return (item :: more, rest)
    | ']' :: rest => return ([item], rest)
    | _ => none

/-- The fields of an object, up to its closing brace. -/
def fields : Nat → List Char → Option (List (String × Json) × List Char)
  | 0, _ => none
  | fuel + 1, text => do
    let (key, rest) ← match skipBlanks text with
      | '"' :: rest => string rest
      | _ => none
    let rest ← match skipBlanks rest with
      | ':' :: rest => some rest
      | _ => none
    let (value, rest) ← document fuel rest
    match skipBlanks rest with
    | ',' :: rest =>
      let (more, rest) ← fields fuel rest
      return ((key, value) :: more, rest)
    | '}' :: rest => return ([(key, value)], rest)
    | _ => none

end

end Listing.Json.Reader

namespace Listing.Json

/-- The document that a text holds, with nothing but blanks around it. -/
def read? (text : String) : Option Json :=
  let chars := text.toList
  match Reader.document (2 * chars.length + 1) chars with
  | some (document, rest) => if (Reader.skipBlanks rest).isEmpty then some document else none
  | none => none

end Listing.Json
