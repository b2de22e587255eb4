namespace Listing

/-!
# Directions of ordering

* `Direction` — ascending or descending.
-/

/-- The direction of one ordering key. -/
inductive Direction
  | asc
  | desc
  deriving DecidableEq, Repr

namespace Direction

/-- The name of the direction in requests. -/
def wireName : Direction → String
  | asc => "asc"
  | desc => "desc"

/-- The directions by name. -/
def named : List (String × Direction) := [("asc", asc), ("desc", desc)]

/-- The direction of a name. -/
def ofName? (name : String) : Option Direction := named.lookup name

/-- A direction is found by its name. -/
@[simp] theorem ofName?_wireName (d : Direction) : ofName? d.wireName = some d := by
  cases d <;> rfl

end Direction

end Listing
