import Listing.Query.Operand

namespace Listing

/-!
# Searching

* `SearchOperator.condition` — the condition that an operator and a term put on an operand;
* `Criterion.tag` — the searched field, by path and name, under which alternatives are grouped;
* `Query.search` — the query with one criterion; a blank term changes nothing;
* `Query.searchAll` — the query with all criteria of a search, in order;
* `Query.searchLeniently` — the same with wildcards around patterns, and without the criteria whose
  term has the wrong shape.
-/

namespace SearchOperator

/-- The condition that an operator and a term put on an operand. -/
def condition (lhs : Sql.Operand) (operator : SearchOperator) (term : Term) :
    Except Error Sql.Condition :=
  match operator with
  | .isNull =>
    match term.bool? with
    | some b => .ok (.nullness lhs b)
    | none => .error (.invalidParams .needsBoolean)
  | .isIn =>
    match term.items? with
    | some values => .ok (.isIn lhs values)
    | none => .error (.invalidParams (.needsList .isIn))
  | .notIn =>
    match term.items? with
    | some values => .ok (.isNotIn lhs values)
    | none => .error (.invalidParams (.needsList .notIn))
  | .between =>
    match term.items? with
    | some [low, high] => .ok (.between lhs low high)
    | _ => .error (.invalidParams .needsBounds)
  | .like => .ok (.compare lhs .like term)
  | .ilike => .ok (.compare lhs .ilike term)
  | .eq => .ok (.compare lhs .eq term)
  | .gt => .ok (.compare lhs .gt term)
  | .lt => .ok (.compare lhs .lt term)
  | .gteq => .ok (.compare lhs .gteq term)
  | .lteq => .ok (.compare lhs .lteq term)

end SearchOperator

namespace Criterion

/-- A step of a path in the tag of a criterion. -/
def stepTag (step : JoinStep) : String := step.kind.wireName ++ ":" ++ step.relation ++ "/"

/-- A field in the tag of a criterion. -/
def fieldTag : Field → String
  | .column name => name
  | .computed template args => template.wireName ++ "(" ++ ",".intercalate args ++ ")"

/-- The searched field: its path and its name, but not the aliases of its joins. -/
def tag (c : Criterion) : String := String.join (c.path.map stepTag) ++ fieldTag c.field

/-- The criterion with wildcards around its pattern, if it has one. -/
def withWildcards (c : Criterion) : Criterion :=
  match c.operator, c.term with
  | .like, .text pattern => { c with term := .text ("%" ++ pattern ++ "%") }
  | .ilike, .text pattern => { c with term := .text ("%" ++ pattern ++ "%") }
  | _, _ => c

end Criterion

namespace Query

/-- The query with one criterion; a blank term changes nothing. -/
def search (q : Query) (c : Criterion) : Except Error Query :=
  if c.term.isBlank then .ok q
  else do
    c.check
    -- the field belongs to the last entity of the path
    let (joined, target) := q.follow c.path
    let operand ← joined.operand target c.field
    let condition ← c.operator.condition operand c.term
    return joined.attach c.tag c.combine condition

/-- The query with all criteria of a search, in order. -/
def searchAll (q : Query) (criteria : Criteria) : Except Error Query :=
  criteria.foldlM (fun q entry => q.search entry.2) q

/-- The query with one criterion of a lenient search. -/
def searchLeniently (q : Query) (c : Criterion) : Except Error Query :=
  match c.check with
  -- the shape is checked before the wildcards are added, so an empty pattern matches anything
  | .ok _ => q.search c.withWildcards
  | .error _ => .ok q

/-- The query with all criteria of a lenient search, in order. -/
def searchAllLeniently (q : Query) (criteria : Criteria) : Except Error Query :=
  criteria.foldlM (fun q entry => q.searchLeniently entry.2) q

end Query

end Listing
