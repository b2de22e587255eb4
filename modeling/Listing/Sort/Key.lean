import Listing.Field.Basic
import Listing.Join.Path
import Listing.Sort.Direction

namespace Listing

/-!
# Sort keys

What one item of an ordering asks: the rows ordered by a field reached along a path.

* `SortKey` — a field, its path, a direction or none, and whether case is ignored; a key without a
  direction orders nothing;
* `SortKeys.encode`, `SortKeys.decode` — the document of a list of keys, and the keys of one.
-/

/-- One key of an ordering. -/
structure SortKey where
  field : Field
  path : JoinPath
  direction : Option Direction
  ignoreCase : Bool
  deriving DecidableEq, Repr

namespace Direction

/-- Reads the direction of a name. -/
def parse (name : String) : Except Error Direction :=
  match ofName? name with
  | some d => .ok d
  | none => .error (.invalidParams (.unknownDirection name))

end Direction

namespace SortKey

/-- The document of a key; a direction that is not there is left out. -/
def encode (key : SortKey) : Json :=
  .obj ([("field", key.field.encode), ("assoc", JoinPath.encode key.path)] ++
    (match key.direction with
      | some d => [("order", .str d.wireName)]
      | none => []) ++ [("ci", .bool key.ignoreCase)])

/-- How a record of this kind is described when it ends too early. -/
def wanted : String := "struct SortSpec with 4 elements"

/-- A direction, or null for none. -/
def decodeDirection : Json → Except DecodeError (Option Direction) :=
  Json.asOption (Json.asVariant Direction.named)

/-- The fields of a key, with their decoders. -/
def recordFields : List Json.Record.Slot :=
  [.of "field" Field.decode, .of "assoc" JoinPath.decode, .of "order" decodeDirection,
    .of "ci" Json.asBool]

/-- A key written as an object. -/
def ofFields (entries : Dict Json) : Except DecodeError SortKey := do
  Json.Record.check recordFields entries
  let field ← Json.Record.required entries "field" Field.decode
  let path ← Json.Record.optional entries "assoc" JoinPath.decode []
  let direction ← Json.Record.optional entries "order" decodeDirection none
  let ignoreCase ← Json.Record.optional entries "ci" Json.asBool false
  return { field, path, direction, ignoreCase }

/-- A key written as a list of its fields. -/
def ofItems (items : List Json) : Except DecodeError SortKey := do
  let field ← Json.Record.item items 0 wanted Field.decode
  let path ← Json.Record.itemOr items 1 JoinPath.decode []
  let direction ← Json.Record.itemOr items 2 decodeDirection none
  let ignoreCase ← Json.Record.itemOr items 3 Json.asBool false
  Json.Record.atMost items 4
  return { field, path, direction, ignoreCase }

/-- The key of a document. -/
def decode : Json → Except DecodeError SortKey := Json.Record.decode "SortSpec" ofFields ofItems

end SortKey

namespace SortKeys

/-- The document of a list of keys. -/
def encode (keys : List SortKey) : Json := .arr (keys.map SortKey.encode)

/-- The keys of a document. -/
def decode (document : Json) : Except DecodeError (List SortKey) := do
  let items ← document.asItems
  items.mapM SortKey.decode

end SortKeys

end Listing
