import Listing.Text.Quoted

namespace Listing.Text.Outline

/-!
# Outlines of values

The one-line form in which a composite value is shown inside a message: a record with its name and
fields, a list, a pair, a value that may be missing.

* `record` — `Name { a: 1, b: 2 }`;
* `list` — `[a, b]`;
* `pair` — `(a, b)`;
* `optional` — `None` or `Some(a)`.
-/

/-- A named record with the outlines of its fields, in order. -/
def record (name : String) (fields : List (String × String)) : String :=
  name ++ " \x7b " ++ ", ".intercalate (fields.map fun f => f.1 ++ ": " ++ f.2) ++ " \x7d"

/-- A list of outlines. -/
def list (items : List String) : String := "[" ++ ", ".intercalate items ++ "]"

/-- A pair of outlines. -/
def pair (a b : String) : String := "(" ++ a ++ ", " ++ b ++ ")"

/-- A value that may be missing. -/
def optional : Option String → String
  | none => "None"
  | some item => "Some(" ++ item ++ ")"

/-- A list of texts, each quoted. -/
def texts (items : List String) : String := list (items.map quoted)

/-- A truth value. -/
def bool (b : Bool) : String := if b then "true" else "false"

example : record "Page" [("n", "1"), ("m", "2")] = "Page \x7b n: 1, m: 2 \x7d" := by decide

end Listing.Text.Outline
