import Listing.Term.Wire

namespace Listing

/-!
# Pages by key

A page that starts after the last key seen instead of at an offset.

* `KeysetPage` — the page size, the page, the last key seen and the key column;
* `KeysetPage.encode`, `KeysetPage.decode` — the document of a page, and the page of a document.
-/

/-- A page of rows after the last key seen. -/
structure KeysetPage where
  perPage : Int64
  page : Int64
  lastSeenKey : Term
  keyField : String

namespace KeysetPage

/-- The document of a page. -/
def encode (p : KeysetPage) : Json :=
  .obj [("per_page", .int p.perPage), ("page", .int p.page),
    ("last_seen_key", p.lastSeenKey.encode), ("key_field", .str p.keyField)]

/-- How a record of this kind is described when it ends too early. -/
def wanted : String := "struct KeysetSpec with 4 elements"

/-- The fields of a page, with their decoders. -/
def recordFields : List Json.Record.Slot :=
  [.of "per_page" Json.asInt64, .of "page" Json.asInt64,
    .of "last_seen_key" Term.decode, .of "key_field" Json.asString]

/-- A page written as an object. -/
def ofFields (entries : Dict Json) : Except DecodeError KeysetPage := do
  Json.Record.check recordFields entries
  let perPage ← Json.Record.required entries "per_page" Json.asInt64
  let page ← Json.Record.required entries "page" Json.asInt64
  let lastSeenKey ← Json.Record.optional entries "last_seen_key" Term.decode .null
  let keyField ← Json.Record.required entries "key_field" Json.asString
  return { perPage, page, lastSeenKey, keyField }

/-- A page written as a list of its fields. -/
def ofItems (items : List Json) : Except DecodeError KeysetPage := do
  let perPage ← Json.Record.item items 0 wanted Json.asInt64
  let page ← Json.Record.item items 1 wanted Json.asInt64
  let lastSeenKey ← Json.Record.itemOr items 2 Term.decode .null
  let keyField ← Json.Record.item items 3 wanted Json.asString
  Json.Record.atMost items 4
  return { perPage, page, lastSeenKey, keyField }

/-- The page of a document. -/
def decode : Json → Except DecodeError KeysetPage :=
  Json.Record.decode "KeysetSpec" ofFields ofItems

end KeysetPage

end Listing
