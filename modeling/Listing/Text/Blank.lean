namespace Listing.Text

/-!
# Blank characters

The 25 characters with the Unicode property `White_Space`, which surround a number or a date in a
request without changing it.

* `isBlank` — a character of the property;
* `trimStart`, `trim` — a text without the blanks at its start, at both ends.
-/

/-- Whether `c` has the property `White_Space`. -/
def isBlank (c : Char) : Bool :=
  let n := c.toNat
  (9 ≤ n && n ≤ 13) || n == 0x20 || n == 0x85 || n == 0xA0 || n == 0x1680 ||
    (0x2000 ≤ n && n ≤ 0x200A) || n == 0x2028 || n == 0x2029 || n == 0x202F || n == 0x205F ||
    n == 0x3000

/-- The text from its first character that is not blank. -/
def trimStart (text : List Char) : List Char := text.dropWhile isBlank

/-- The text up to its last character that is not blank. -/
def trimEnd (text : List Char) : List Char := (text.reverse.dropWhile isBlank).reverse

/-- The text between the blanks at its two ends. -/
def trim (text : List Char) : List Char := trimEnd (trimStart text)

example : trim " 7\u00a0".toList = ['7'] := by decide

end Listing.Text
