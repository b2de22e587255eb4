namespace Listing

/-!
# Kinds of join

* `JoinKind` — inner, left or cross;
* `JoinKind.wireName`, `JoinKind.ofName?` — its name in requests.
-/

/-- How the rows of an association are joined. -/
inductive JoinKind
  | inner
  | left
  | cross
  deriving DecidableEq, Repr

namespace JoinKind

/-- The name of the kind in requests. -/
def wireName : JoinKind → String
  | inner => "inner"
  | left => "left"
  | cross => "cross"

/-- The kind of a name. -/
def ofName? : String → Option JoinKind
  | "inner" => some inner
  | "left" => some left
  | "cross" => some cross
  | _ => none

/-- A kind is found by its name. -/
@[simp] theorem ofName?_wireName (kind : JoinKind) : ofName? kind.wireName = some kind := by
  cases kind <;> rfl

end JoinKind

end Listing
