import Listing.Query.Repository

namespace Listing

/-!
# Context of a stage

* `Context` — what a hook may use in reading parameters: the repository, if there is one, and the
  page size for requests that give none.
-/

/-- What a hook may use in reading the parameters of its stage. -/
structure Context (m : Type → Type) where
  repository : Option (Repository m)
  perPage : Int64

namespace Context

/-- The outline of a context. -/
def outline {m : Type → Type} (c : Context m) : String :=
  Text.Outline.record "FormatContext"
    [("repo", Text.Outline.bool c.repository.isSome),
      ("per_page", Number.intText c.perPage.toInt)]

end Context

end Listing
