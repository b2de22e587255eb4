import Listing.Sort.Compile
import Listing.Stage.Request

namespace Listing

/-!
# Strict sort parameters

An ordering is an object or a list of objects, each with a field and a direction or with the name of
a sort scope of the entity.

* `StrictSort.items` — the items of an ordering;
* `StrictSort.item` — the key of an object;
* `StrictSort.normalise` — the keys of a request.
-/

namespace StrictSort

/-- The items of an ordering: a single object stands for a list of itself. -/
def items (hook : String) : Json → Except Error (List Json)
  | .arr items => .ok items
  | .obj fields => .ok [.obj fields]
  | other => .error (.invalidParams (.notAnObjectOrList hook other))

/-- The key that a scope of the entity makes, if the object refers to one. -/
def expand (q : Query) (fields : Dict Json) : Except Error (Option SortKey) := do
  match ← Request.scope fields with
  | none => return none
  | some (name, value) =>
    let scope ← q.entity.sortScope name
    let key ← scope value
    return some key

/-- The field of an item. -/
def field (fields : Dict Json) : Except Error Field :=
  match Dict.get? fields "field" with
  | some value => Field.parse value
  | none => .error (.missingKey "sort" "field")

/-- The path of an item, by default the empty one. -/
def path (fields : Dict Json) : Except Error JoinPath :=
  match Dict.get? fields "assoc" with
  | some value => JoinPath.parse value
  | none => .ok []

/-- The direction of an item. -/
def direction (fields : Dict Json) : Except Error Direction :=
  match Dict.get? fields "order" with
  | none => .error (.missingKey "sort" "order")
  | some .null => .error (.missingKey "sort" "order")
  | some (.str name) => Direction.parse name
  | some _ => .error (.invalidParams .directionNotText)

/-- Whether an item ignores case, by default not. -/
def ignoreCase (fields : Dict Json) : Except Error Bool :=
  match Dict.get? fields "ci" with
  | none => .ok false
  | some .null => .ok false
  | some (.bool b) => .ok b
  | some other => .error (.invalidParams (.caseFlagNotBool other))

/-- The key of an object without a scope. -/
def written (fields : Dict Json) : Except Error SortKey := do
  let field ← field fields
  let path ← path fields
  let direction ← direction fields
  let ignoreCase ← ignoreCase fields
  return { field, path, direction := some direction, ignoreCase }

/-- The key of one item. -/
def item (q : Query) (document : Json) : Except Error SortKey := do
  let fields ← Request.object "sort" document
  -- beside a scope all other fields of the object are ignored
  match ← expand q fields with
  | some key => return key
  | none => written fields

/-- The keys of a request. -/
def normalise (q : Query) (request : Json) : Except Error (List SortKey) := do
  let items ← items "sort" request
  items.mapM (item q)

end StrictSort

end Listing
