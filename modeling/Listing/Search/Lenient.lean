import Listing.Search.Strict

namespace Listing

/-!
# Lenient search parameters

An object whose operator, term or combination is missing or unknown is left out of the search.
Scopes have to exist, and fields, paths and terms that are there have to be readable.

* `LenientSearch.entry` — the criterion of an object, or none;
* `LenientSearch.normalise` — the criteria of a request.
-/

namespace LenientSearch

/-- The operator of an object, if it has a known one. -/
def operator? (fields : Dict Json) : Option SearchOperator :=
  ((Dict.get? fields "search_type").bind Json.string?).bind SearchOperator.ofName?

/-- The criterion of an object, or none if it is left out. -/
def entry (name : String) (fields : Dict Json) : Except Error (Option Criterion) :=
  -- what leaves an entry out is looked at before what makes it a fault
  match operator? fields, Dict.get? fields "search_term", StrictSearch.combine? fields with
  | some operator, some value, .ok combine => do
    let field ← StrictSearch.field name fields
    let path ← StrictSearch.path fields
    let term ← Request.term value
    return some { field, path, operator, term, combine }
  | _, _, _ => .ok none

/-- The criterion of one entry of a request, or none. -/
def normaliseEntry (q : Query) (request : String × Json) :
    Except Error (Option (String × Criterion)) := do
  let criterion ← match request.2 with
    | .obj fields => entry request.1 fields
    | other => (StrictSearch.expand q request.1 other).map some
  return criterion.map fun c => (request.1, c)

/-- The criteria of a request, in order, without the entries that are left out. -/
def normalise (q : Query) (request : Json) : Except Error Criteria := do
  let entries ← Request.object "legacy_search" request
  let criteria ← entries.mapM (normaliseEntry q)
  return criteria.filterMap id

end LenientSearch

end Listing
