import Listing.Json.Decode
import Listing.Term.Basic

namespace Listing

/-!
# Terms in documents

* `Term.encode` — the document of a term;
* `Term.decode` — the term of a document without objects; a natural number beyond 64-bit integers
  becomes the nearest float;
* `Term.outline` — the form in which a term is shown in messages.
-/

namespace Term

mutual

/-- The document of a term. -/
def encode : Term → Json
  | null => .null
  | bool b => .bool b
  | int n => .int n
  | float x => .float x
  | text s => .str s
  | list items => .arr (encodeItems items)

/-- The documents of some terms. -/
def encodeItems : List Term → List Json
  | [] => []
  | item :: rest => encode item :: encodeItems rest

end

mutual

/-- The term of a document, unless an object occurs in it. -/
def ofJson? : Json → Option Term
  | .null => some null
  | .bool b => some (bool b)
  | .num (.int n) => some (int n)
  -- no integer of a term is that large
  | .num (.large n _) => some (float (Number.Binary64.ofNat n.toNat))
  | .num (.float x) => some (float x)
  | .str s => some (text s)
  | .arr items => (ofItems? items).map list
  | .obj _ => none

/-- The terms of some documents, unless an object occurs in one. -/
def ofItems? : List Json → Option (List Term)
  | [] => some []
  | item :: rest =>
    match ofJson? item, ofItems? rest with
    | some term, some terms => some (term :: terms)
    | _, _ => none

end

/-- Reads a term; objects are none. -/
def decode (document : Json) : Except DecodeError Term :=
  match ofJson? document with
  | some term => .ok term
  | none => .error (.custom "data did not match any variant of untagged enum Term")

mutual

/-- The outline of a term: its kind and its value. -/
def outline : Term → String
  | null => "Null"
  | bool b => "Bool(" ++ Text.Outline.bool b ++ ")"
  | int n => "Int(" ++ Number.intText n.toInt ++ ")"
  | float x => "Float(" ++ Number.outlineLayout.text x ++ ")"
  | text s => "Text(" ++ Text.quoted s ++ ")"
  | list items => "List(" ++ Text.Outline.list (outlines items) ++ ")"

/-- The outlines of some terms. -/
def outlines : List Term → List String
  | [] => []
  | item :: rest => outline item :: outlines rest

end

end Term

end Listing
