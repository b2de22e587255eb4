import Listing.Text.Combining
import Listing.Text.Printable

namespace Listing.Text

/-!
# Quoted text

The form in which a text is shown inside a message: between double quotes, with the quote, the
backslash and the usual control characters escaped by a letter, and every other character that
would not show on its own (unprintable, or combining with its neighbour) by its code point.

* `Quoted.escape` — the spelling of one character;
* `quoted` — the quoted form of a text.
-/

/-- The digits of `n` in base 16, lower case. -/
def hexDigits (n : Nat) : String := String.ofList (Nat.toDigits 16 n)

namespace Quoted

/-- An escape by code point: `\u{301}`. -/
def byCodePoint (c : Char) : String := "\\u\x7b" ++ hexDigits c.toNat ++ "\x7d"

/-- The spelling of one character inside quotes. -/
def escape (c : Char) : String :=
  if c = '\x00' then "\\0"
  else if c = '\t' then "\\t"
  else if c = '\r' then "\\r"
  else if c = '\n' then "\\n"
  else if c = '\\' then "\\\\"
  else if c = '"' then "\\\""
  else if isCombining c || !isPrintable c then byCodePoint c
  else c.toString

end Quoted

/-- The text between double quotes, each character in its escaped spelling. -/
def quoted (text : String) : String :=
  "\"" ++ String.join (text.toList.map Quoted.escape) ++ "\""

end Listing.Text
