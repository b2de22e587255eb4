import Listing.Sort.Strict

namespace Listing

/-!
# Lenient sort parameters

An item may also be a text, `field.direction` or `field.direction.ci`.  A direction that is missing
or unknown leaves a key that orders nothing, and an item without a field is left out.

* `LenientSort.ofText` — the key of a text;
* `LenientSort.item` — the key of one item, or none;
* `LenientSort.normalise` — the keys of a request.
-/

namespace LenientSort

/-- The parts of a text between its dots. -/
def parts : List Char → List (List Char)
  | [] => [[]]
  | c :: rest =>
    if c = '.' then [] :: parts rest
    else
      match parts rest with
      | part :: more => (c :: part) :: more
      | [] => [[c]]

/-- The key of a text, unless its field is empty. -/
def ofText (text : String) : Option SortKey :=
  let parts := (parts text.toList).map String.ofList
  match parts.head? with
  | none => none
  | some name =>
    -- a dot at the start leaves no field to order by
    if name.isEmpty then none
    else some
      { field := .column name, path := [], direction := (parts[1]?).bind Direction.ofName?,
        ignoreCase := parts[2]? == some "ci" }

/-- The key of an object without a scope, unless it has no field. -/
def written (fields : Dict Json) : Except Error (Option SortKey) :=
  match Dict.get? fields "field" with
  | none => .ok none
  | some value => do
    -- the path is read first, so its fault goes before that of the field
    let path ← StrictSort.path fields
    let field ← Field.parse value
    return some
      { field, path
        direction := ((Dict.get? fields "order").bind Json.string?).bind Direction.ofName?
        ignoreCase := ((Dict.get? fields "ci").bind Json.bool?).getD false }

/-- The key of one item, or none if it is left out. -/
def item (q : Query) : Json → Except Error (Option SortKey)
  | .str text => .ok (ofText text)
  | .obj fields => do
    match ← StrictSort.expand q fields with
    | some key => return some key
    | none => written fields
  | _ => .ok none

/-- The items of an ordering: a single text stands for a list of itself. -/
def items : Json → Except Error (List Json)
  | .str text => .ok [.str text]
  | other => StrictSort.items "legacy_sort" other

/-- The keys of a request, in order, without the items that are left out. -/
def normalise (q : Query) (request : Json) : Except Error (List SortKey) := do
  let items ← items request
  let keys ← items.mapM (item q)
  return keys.filterMap id

end LenientSort

end Listing
