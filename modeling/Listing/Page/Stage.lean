import Listing.Page.Keyset
import Listing.Query.Operand
import Listing.Stage.Context
import Listing.Stage.Request

namespace Listing

/-!
# Paging

* `OffsetPage.normalise` — the page of a request, with the totals of one count of the query's rows;
* `Query.page` — the window of a page;
* `KeysetPage.normalise` — the page of a request by a unique key; nothing is counted;
* `Query.pageAfter` — the rows after the last key seen, at most a page of them.
-/

namespace OffsetPage

/-- The page that a request asks for, by a page scope or by numbers. -/
def read (q : Query) (request : Json) (perPage : Int64) : Except Error OffsetPage := do
  let fields ← Request.object "paginate" request
  match ← Request.scope fields with
  | some (name, value) =>
    let scope ← q.entity.pageScope name
    let page ← scope value
    -- a scope's totals are not taken over, and its numbers are no more trusted than a request's
    return OffsetPage.request page.page page.perPage
  | none =>
    let size ← Request.integer fields "per_page"
    let page ← Request.integer fields "page"
    return OffsetPage.request (page.getD 1) (size.getD perPage)

variable {m : Type → Type} [Monad m]

/-- The page with the totals of one count of the query's rows. -/
def precompute (q : Query) (page : OffsetPage) (repository : Repository m) :
    ExceptT Error m OffsetPage := do
  let total ← repository.count q
  return page.withTotal total

/-- The page of a request, with its totals. -/
def normalise (q : Query) (request : Json) (context : Context m) :
    ExceptT Error m OffsetPage :=
  match read q request context.perPage with
  | .error e => throw e
  | .ok page =>
    match context.repository with
    | some repository => precompute q page repository
    -- found out last: a faulty request is refused for what it says
    | none => throw (.missingKey "paginate" "repo")

end OffsetPage

namespace KeysetPage

/-- The key column of a request, by default the primary key. -/
def keyColumn (entity : Entity) (fields : Dict Json) : Except Error String :=
  match Dict.get? fields "key_field" with
  | some (.str name) => .ok name
  | none | some .null =>
    match entity.primaryKey with
    | some name => .ok name
    | none => .error (.missingKey "keyset_paginate" "key_field")
  | some other => .error (.invalidParams (.keyNotColumn other))

/-- The last key seen, by default none. -/
def lastSeen (fields : Dict Json) : Except Error Term :=
  match Dict.get? fields "last_seen_key" with
  | some value => Request.term value
  | none => .ok .null

/-- The page of a request; its key column has to be a unique key of the entity. -/
def normalise (q : Query) (request : Json) (perPage : Int64) : Except Error KeysetPage := do
  let fields ← Request.object "keyset_paginate" request
  let keyField ← keyColumn q.entity fields
  -- only a unique key tells where the last page ended
  if !q.entity.isUniqueKey keyField then
    throw (.invalidParams (.notUniqueKey keyField q.entity.name))
  let lastSeenKey ← lastSeen fields
  let size ← Request.integer fields "per_page"
  let page ← Request.integer fields "page"
  return { perPage := max (size.getD perPage) 1, page := max (page.getD 1) 1,
           lastSeenKey, keyField }

end KeysetPage

namespace Query

/-- The window of a page. -/
def page (q : Query) (p : OffsetPage) : Query :=
  let wanted := OffsetPage.request p.page p.perPage
  (q.withLimit wanted.perPage).withOffset wanted.offset

/-- The rows after the last key seen; without one, all rows. -/
def after (q : Query) (p : KeysetPage) : Except Error Query :=
  if p.lastSeenKey.isBlank then .ok q
  else (columnOperand q.base p.keyField).map fun key => q.also (.compare key .gt p.lastSeenKey)

/-- The rows after the last key seen, at most a page of them. -/
def pageAfter (q : Query) (p : KeysetPage) : Except Error Query :=
  (q.after p).map fun q => q.withLimit (max p.perPage 1)

end Query

end Listing
