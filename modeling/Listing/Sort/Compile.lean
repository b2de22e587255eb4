import Listing.Query.Operand

namespace Listing

/-!
# Ordering

* `Query.sort` — the query with one more key; a key without a direction changes nothing;
* `Query.sortAll` — the query with all keys of an ordering, in order.
-/

namespace Query

/-- The query with one more key; a key without a direction changes nothing. -/
def sort (q : Query) (key : SortKey) : Except Error Query :=
  match key.direction with
  | none => .ok q
  | some direction => do
    let (joined, target) := q.follow key.path
    let operand ← joined.operand target key.field
    return joined.orderBy (if key.ignoreCase then .lower operand else operand) direction

/-- The query with all keys of an ordering, in order. -/
def sortAll (q : Query) (keys : List SortKey) : Except Error Query := keys.foldlM sort q

end Query

end Listing
