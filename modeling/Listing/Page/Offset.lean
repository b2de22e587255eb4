import Listing.Json.Decode

namespace Listing

/-!
# Pages by offset

A page of a listing, counted from 1, with the totals that a count of the rows gives.  All arithmetic
is on 64-bit integers.

* `OffsetPage.request` — a page and a page size, both at least 1;
* `OffsetPage.offset` — the number of rows before the page, at most the greatest integer;
* `OffsetPage.withTotal` — the page with its totals, pulled back to the last page that has rows;
* `OffsetPage.encode`, `OffsetPage.decode` — the document of a page, and the page of a document.
-/

/-- The product of two integers, or the nearest 64-bit integer if it is out of range. -/
def saturatingMul (a b : Int64) : Int64 :=
  let product := a.toInt * b.toInt
  if product < Int64.minValue.toInt then Int64.minValue
  else if Int64.maxValue.toInt < product then Int64.maxValue
  else Int64.ofInt product

/-- A page of a listing with the totals of its rows. -/
structure OffsetPage where
  page : Int64
  perPage : Int64
  totalCount : Int64
  maxPage : Int64
  deriving DecidableEq, Repr

namespace OffsetPage

/-- A page that is asked for, with page and page size at least 1 and no totals yet. -/
def request (page perPage : Int64) : OffsetPage := ⟨max page 1, max perPage 1, 0, 0⟩

/-- The number of rows before the page. -/
def offset (p : OffsetPage) : Int64 := saturatingMul p.perPage (p.page - 1)

/-- The number of pages that `totalCount` rows take up. -/
def pageCount (totalCount perPage : Int64) : Int64 :=
  -- rounding up by the row before the last cannot overflow, as adding `perPage - 1` could
  if totalCount ≤ 0 then 0 else (totalCount - 1) / max perPage 1 + 1

/-- The page with the totals of so many rows, pulled back to the last page that has rows. -/
def withTotal (p : OffsetPage) (totalCount : Int64) : OffsetPage :=
  -- from here on the page size is at least 1, and no total is negative
  let perPage := max p.perPage 1
  let totalCount := max totalCount 0
  let maxPage := pageCount totalCount perPage
  { page := min (max p.page 1) (max maxPage 1), perPage, totalCount, maxPage }

/-- The document of a page. -/
def encode (p : OffsetPage) : Json :=
  .obj [("page", .int p.page), ("per_page", .int p.perPage), ("total_count", .int p.totalCount),
    ("max_page", .int p.maxPage)]

/-- How a record of this kind is described when it ends too early. -/
def wanted : String := "struct PaginateSpec with 4 elements"

/-- The fields of a page, with their decoders. -/
def recordFields : List Json.Record.Slot :=
  [.of "page" Json.asInt64, .of "per_page" Json.asInt64, .of "total_count" Json.asInt64,
    .of "max_page" Json.asInt64]

/-- A page written as an object. -/
def ofFields (entries : Dict Json) : Except DecodeError OffsetPage := do
  Json.Record.check recordFields entries
  let page ← Json.Record.required entries "page" Json.asInt64
  let perPage ← Json.Record.required entries "per_page" Json.asInt64
  let totalCount ← Json.Record.optional entries "total_count" Json.asInt64 0
  let maxPage ← Json.Record.optional entries "max_page" Json.asInt64 0
  return { page, perPage, totalCount, maxPage }

/-- A page written as a list of its fields. -/
def ofItems (items : List Json) : Except DecodeError OffsetPage := do
  let page ← Json.Record.item items 0 wanted Json.asInt64
  let perPage ← Json.Record.item items 1 wanted Json.asInt64
  let totalCount ← Json.Record.itemOr items 2 Json.asInt64 0
  let maxPage ← Json.Record.itemOr items 3 Json.asInt64 0
  Json.Record.atMost items 4
  return { page, perPage, totalCount, maxPage }

/-- The page of a document. -/
def decode : Json → Except DecodeError OffsetPage :=
  Json.Record.decode "PaginateSpec" ofFields ofItems

end OffsetPage

end Listing
