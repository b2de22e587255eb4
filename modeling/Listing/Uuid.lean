import Listing.Number.Reader

namespace Listing

/-!
# Universally unique identifiers

* `Uuid.read` — the sixteen bytes of an identifier written as 32 digits, with hyphens, with hyphens
  in braces, or as a URN.
-/

namespace Uuid

/-- The bytes that pairs of digits spell. -/
def bytes : List Char → Option (List UInt8)
  | [] => some []
  | high :: low :: rest => do
    let high ← Number.hexDigitValue? high
    let low ← Number.hexDigitValue? low
    let rest ← bytes rest
    return UInt8.ofNat (16 * high + low) :: rest
  | [_] => none

/-- The 32 digits of the form with hyphens: groups of 8, 4, 4, 4 and 12 digits. -/
def withoutHyphens (text : List Char) : Option (List Char) :=
  if [8, 13, 18, 23].all fun i => text[i]? == some '-' then
    some (text.take 8 ++ (text.drop 9).take 4 ++ (text.drop 14).take 4 ++ (text.drop 19).take 4 ++
      text.drop 24)
  else none

/-- The start of the URN form, in lower case. -/
def urnHead : List Char := "urn:uuid:".toList

/-- The bytes of an identifier in any of its four forms. -/
def read (text : List Char) : Option (List UInt8) :=
  if text.length = 32 then bytes text
  else if text.length = 36 then (withoutHyphens text).bind bytes
  else if text.length = 38 ∧ text.head? = some '\x7b' ∧ text.getLast? = some '\x7d' then
    (withoutHyphens ((text.drop 1).take 36)).bind bytes
  else if text.length = 45 ∧ (text.take 9).map Char.toLower = urnHead then
    (withoutHyphens (text.drop 9)).bind bytes
  else none

end Uuid

end Listing
