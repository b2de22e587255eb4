import Listing.Search.Compile
import Listing.Stage.Request

namespace Listing

/-!
# Strict search parameters

Every entry of a search has to be understood: an object is a criterion, anything else is the value
of a search scope of the entity.

* `StrictSearch.entry` — the criterion of an object;
* `StrictSearch.normalise` — the criteria of a request.
-/

namespace StrictSearch

/-- The field of an entry, by default the column of the entry's name. -/
def field (name : String) (fields : Dict Json) : Except Error Field :=
  match Dict.get? fields "field" with
  | some value => Field.parse value
  | none => .ok (.column name)

/-- The path of an entry, by default the empty one. -/
def path (fields : Dict Json) : Except Error JoinPath :=
  match Dict.get? fields "assoc" with
  | some value => JoinPath.parse value
  | none => .ok []

/-- The operator of an entry. -/
def operator (hook : String) (fields : Dict Json) : Except Error SearchOperator :=
  match Dict.get? fields "search_type" with
  | none => .error (.missingKey hook "search_type")
  | some (.str name) => SearchOperator.parse name
  | some _ => .error (.invalidParams .operatorNotText)

/-- The term of an entry. -/
def term (hook : String) (fields : Dict Json) : Except Error Term :=
  match Dict.get? fields "search_term" with
  | none => .error (.missingKey hook "search_term")
  | some value => Request.term value

/-- The combination of an entry; none for one that is not known. -/
def combine? (fields : Dict Json) : Except Json Combine :=
  match Dict.get? fields "search_expr" with
  | none => .ok .and
  | some .null => .ok .and
  | some value => (Json.asVariant Combine.named value).mapError fun _ => value

/-- The criterion of an object. -/
def entry (hook name : String) (fields : Dict Json) : Except Error Criterion := do
  -- read in this order, so of two faults the first in it is reported
  let field ← field name fields
  let path ← path fields
  let operator ← operator hook fields
  let term ← term hook fields
  let combine ← (combine? fields).mapError fun value => .invalidParams (.unknownCombine value)
  let criterion : Criterion := { field, path, operator, term, combine }
  criterion.check
  return criterion

/-- The criterion that a scope of the entity makes of a value. -/
def expand (q : Query) (name : String) (value : Json) : Except Error Criterion := do
  -- an unknown scope is reported even if its value is no term
  let scope ← q.entity.searchScope name
  let term ← Request.term value
  scope term

/-- The criterion of one entry of a request. -/
def normaliseEntry (q : Query) (request : String × Json) :
    Except Error (String × Criterion) := do
  let criterion ← match request.2 with
    | .obj fields => entry "search" request.1 fields
    | other => expand q request.1 other
  return (request.1, criterion)

/-- The criteria of a request. -/
def normalise (q : Query) (request : Json) : Except Error Criteria := do
  let entries ← Request.object "search" request
  entries.mapM (normaliseEntry q)

end StrictSearch

end Listing
