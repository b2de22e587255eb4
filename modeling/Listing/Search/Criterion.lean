import Listing.Field.Basic
import Listing.Join.Path

namespace Listing

/-!
# Search criteria

What one entry of a search asks: the rows whose field, reached along a path, compares with a term.

* `Criterion`, `Criteria` — one entry, and the named entries of a request in order;
* `Criterion.check` — the term has the shape that its operator needs, a blank one always has;
* `Criteria.encode`, `Criteria.decode` — the document of some criteria, and the criteria of one.
-/

/-- The rows whose field, reached along a path, compares with a term. -/
structure Criterion where
  field : Field
  path : JoinPath
  operator : SearchOperator
  term : Term
  combine : Combine

/-- The named entries of a search, in request order. -/
abbrev Criteria := List (String × Criterion)

namespace SearchOperator

/-- Reads the operator of a name. -/
def parse (name : String) : Except Error SearchOperator :=
  match ofName? name with
  | some op => .ok op
  | none => .error (.unsupportedOperator name)

/-- Whether a term that is not blank has the shape that the operator needs. -/
def fits (operator : SearchOperator) (term : Term) : Bool :=
  match operator with
  | .between =>
    match term with
    | .list items => items.length == 2
    | _ => false
  | .isIn | .notIn => term.isList
  | .isNull => term.bool?.isSome
  | _ => !term.isList

end SearchOperator

namespace Criterion

/-- The term is blank or has the shape that the operator needs. -/
def check (c : Criterion) : Except Error Unit :=
  if c.term.isBlank || c.operator.fits c.term then .ok ()
  else .error (.invalidParams (.termMisfit c.term c.operator))

/-- The document of a criterion. -/
def encode (c : Criterion) : Json :=
  .obj [("field", c.field.encode), ("assoc", JoinPath.encode c.path),
    ("search_type", .str c.operator.wireName), ("search_term", c.term.encode),
    ("search_expr", .str c.combine.wireName)]

/-- How a record of this kind is described when it ends too early. -/
def wanted : String := "struct SearchSpec with 5 elements"

/-- The fields of a criterion, with their decoders. -/
def recordFields : List Json.Record.Slot :=
  [.of "field" Field.decode, .of "assoc" JoinPath.decode,
    .of "search_type" (Json.asVariant SearchOperator.named),
    .of "search_term" Term.decode, .of "search_expr" (Json.asVariant Combine.named)]

/-- A criterion written as an object. -/
def ofFields (entries : Dict Json) : Except DecodeError Criterion := do
  Json.Record.check recordFields entries
  let field ← Json.Record.required entries "field" Field.decode
  let path ← Json.Record.optional entries "assoc" JoinPath.decode []
  let operator ← Json.Record.required entries "search_type" (Json.asVariant SearchOperator.named)
  let term ← Json.Record.required entries "search_term" Term.decode
  let combine ← Json.Record.optional entries "search_expr" (Json.asVariant Combine.named) .and
  return { field, path, operator, term, combine }

/-- A criterion written as a list of its fields. -/
def ofItems (items : List Json) : Except DecodeError Criterion := do
  let field ← Json.Record.item items 0 wanted Field.decode
  let path ← Json.Record.itemOr items 1 JoinPath.decode []
  let operator ← Json.Record.item items 2 wanted (Json.asVariant SearchOperator.named)
  let term ← Json.Record.item items 3 wanted Term.decode
  let combine ← Json.Record.itemOr items 4 (Json.asVariant Combine.named) .and
  Json.Record.atMost items 5
  return { field, path, operator, term, combine }

/-- The criterion of a document. -/
def decode : Json → Except DecodeError Criterion :=
  Json.Record.decode "SearchSpec" ofFields ofItems

end Criterion

namespace Criteria

/-- The document of some criteria; of a repeated name the first place and the last criterion. -/
def encode (criteria : Criteria) : Json :=
  .obj (Dict.ofEntries (criteria.map fun entry => (entry.1, entry.2.encode)))

/-- The criterion of one entry of a document. -/
def decodeEntry (entry : String × Json) : Except DecodeError (String × Criterion) :=
  match Criterion.decode entry.2 with
  | .ok c => .ok (entry.1, c)
  | .error e => .error (.relay e.message)

/-- The criteria of a document. -/
def decode (document : Json) : Except DecodeError Criteria := do
  let entries ← document.asFields
  entries.mapM decodeEntry

end Criteria

end Listing
