import Listing.Dict
import Listing.Number.Binary

namespace Listing

/-!
# Documents

The values in which requests and normalised parameters are written.  The fields of an object keep
their order, since entries are handled in the order in which they were sent.

* `JsonNumber` — an integer of 64 bits, a larger natural number below `2 ^ 64`, or a float;
* `Json` — a document;
* `Json.same` — equality of documents, which does not look at the order of fields.
-/

/-- A number: an integer of 64 bits, a natural number beyond those, or a float. -/
inductive JsonNumber
  | int (n : Int64)
  | large (n : UInt64) (beyond : 2 ^ 63 ≤ n.toNat)
  | float (x : Number.Binary64)
  deriving DecidableEq

/-- A document; the fields of an object are in order. -/
inductive Json
  | null
  | bool (b : Bool)
  | num (n : JsonNumber)
  | str (s : String)
  | arr (items : List Json)
  | obj (fields : List (String × Json))

instance : Inhabited Json := ⟨.null⟩

namespace JsonNumber

/-- The number of a natural number below `2 ^ 64`. -/
def ofUInt64 (n : UInt64) : JsonNumber :=
  if h : 2 ^ 63 ≤ n.toNat then .large n h else .int n.toInt64

/-- Equality of numbers of one kind; an integer is never a float. -/
def same : JsonNumber → JsonNumber → Bool
  | .int m, .int n => m == n
  | .large m _, .large n _ => m == n
  | .float x, .float y => x.sameValue y
  | _, _ => false

end JsonNumber

namespace Json

/-- The document of an integer. -/
def int (n : Int64) : Json := .num (.int n)

/-- The document of a float; one that is no number has none, and is written as null. -/
def float (x : Number.Binary64) : Json := if x.isFinite then .num (.float x) else .null

/-- The fields of an object. -/
def fields? : Json → Option (Dict Json)
  | .obj fields => some fields
  | _ => none

/-- The text of a string. -/
def string? : Json → Option String
  | .str s => some s
  | _ => none

/-- The items of a list. -/
def items? : Json → Option (List Json)
  | .arr items => some items
  | _ => none

/-- The truth value of a document that is one. -/
def bool? : Json → Option Bool
  | .bool b => some b
  | _ => none

/-- Whether the document is null. -/
def isNull : Json → Bool
  | .null => true
  | _ => false

mutual

/-- Equality of documents, whatever the order of fields in an object. -/
def same : Json → Json → Bool
  | .null, .null => true
  | .bool a, .bool b => a == b
  | .num m, .num n => m.same n
  | .str s, .str t => s == t
  | .arr xs, .arr ys => sameItems xs ys
  | .obj fs, .obj gs => fs.length == gs.length && sameFields fs gs
  | _, _ => false

/-- Equality of lists of documents. -/
def sameItems : List Json → List Json → Bool
  | [], [] => true
  | x :: xs, y :: ys => same x y && sameItems xs ys
  | _, _ => false

/-- Whether every field is among the others with an equal value. -/
def sameFields : List (String × Json) → List (String × Json) → Bool
  | [], _ => true
  | (key, value) :: rest, others =>
    (match Dict.get? others key with
      | some other => same value other
      | none => false) && sameFields rest others

end

end Json

end Listing
