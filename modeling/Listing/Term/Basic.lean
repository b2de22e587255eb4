import Listing.Number.Reader
import Listing.Text.Blank

namespace Listing

/-!
# Terms

Loosely typed values as they come with a request: what a column is compared with, and keys of rows.

* `Term` — a null, truth value, integer, float, text or list of terms;
* `Term.isBlank` — the terms that stand for no condition at all;
* `Term.bool?`, `Term.int?`, `Term.text?`, `Term.items?` — views of a term; the first two also read
  a text;
* `Term.same` — equality of values, in which floats are compared as numbers.
-/

/-- A loosely typed value. -/
inductive Term
  | null
  | bool (b : Bool)
  | int (n : Int64)
  | float (x : Number.Binary64)
  | text (s : String)
  | list (items : List Term)

instance : Inhabited Term := ⟨.null⟩

namespace Term

/-- A null, an empty text and an empty list are blank. -/
def isBlank : Term → Bool
  | null => true
  | text s => s.isEmpty
  | list items => items.isEmpty
  | _ => false

/-- The truth value of a text that spells one. -/
def readBool : String → Option Bool
  | "true" => some true
  | "false" => some false
  | _ => none

/-- A truth value, or a text that spells one. -/
def bool? : Term → Option Bool
  | bool b => some b
  | text s => readBool s
  | _ => none

/-- An integer, or a text that spells one between blanks. -/
def int? : Term → Option Int64
  | int n => some n
  | text s => (Number.readInt64 (Text.trim s.toList)).toOption
  | _ => none

/-- The text of a text term. -/
def text? : Term → Option String
  | text s => some s
  | _ => none

/-- The items of a list term. -/
def items? : Term → Option (List Term)
  | list items => some items
  | _ => none

/-- Whether the term is a list. -/
def isList : Term → Bool
  | list _ => true
  | _ => false

mutual

/-- Equality of values; floats are compared as numbers. -/
def same : Term → Term → Bool
  | null, null => true
  | bool a, bool b => a == b
  | int m, int n => m == n
  | float x, float y => x.sameValue y
  | text s, text t => s == t
  | list xs, list ys => sameItems xs ys
  | _, _ => false

/-- Equality of lists of terms, item by item. -/
def sameItems : List Term → List Term → Bool
  | [], [] => true
  | x :: xs, y :: ys => same x y && sameItems xs ys
  | _, _ => false

end

/-- A list of terms, or null when there is no list. -/
def ofOption {α : Type} (toTerm : α → Term) : Option α → Term
  | some a => toTerm a
  | none => null

end Term

end Listing
