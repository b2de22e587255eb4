import Listing.Json.Basic
import Listing.Number.Layout
import Listing.Text.Quoted

namespace Listing

/-!
# Printing documents

The compact text of a document: no blanks, fields in order, and in strings an escape for the quote,
the backslash and the control characters only.

* `Json.text` — the text of a document;
* `Json.stringText` — the text of a string.
-/

namespace Json

/-- The spelling of one character in a string. -/
def escape (c : Char) : String :=
  if c = '"' then "\\\""
  else if c = '\\' then "\\\\"
  else if c = '\x08' then "\\b"
  else if c = '\x0c' then "\\f"
  else if c = '\n' then "\\n"
  else if c = '\r' then "\\r"
  else if c = '\t' then "\\t"
  else if c.toNat < 0x10 then "\\u000" ++ Text.hexDigits c.toNat
  else if c.toNat < 0x20 then "\\u00" ++ Text.hexDigits c.toNat
  else c.toString

/-- The text of a string. -/
def stringText (s : String) : String := "\"" ++ String.join (s.toList.map escape) ++ "\""

/-- The text of a number. -/
def numberText : JsonNumber → String
  | .int n => Number.intText n.toInt
  | .large n _ => Number.natText n.toNat
  | .float x => Number.documentLayout.text x

mutual

/-- The compact text of a document. -/
def text : Json → String
  | .null => "null"
  | .bool b => if b then "true" else "false"
  | .num n => numberText n
  | .str s => stringText s
  | .arr items => "[" ++ itemsText items ++ "]"
  | .obj fields => "\x7b" ++ fieldsText fields ++ "\x7d"

/-- The items of a list, with commas between them. -/
def itemsText : List Json → String
  | [] => ""
  | [item] => text item
  | item :: next :: rest => text item ++ "," ++ itemsText (next :: rest)

/-- The fields of an object, with commas between them. -/
def fieldsText : List (String × Json) → String
  | [] => ""
  | [(key, value)] => stringText key ++ ":" ++ text value
  | (key, value) :: next :: rest =>
    stringText key ++ ":" ++ text value ++ "," ++ fieldsText (next :: rest)

end

end Json

end Listing
