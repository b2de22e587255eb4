import Listing.Page.Stage
import Listing.Search.Lenient
import Listing.Sort.Lenient

namespace Listing

/-!
# Handlers

What a hook does: it normalises the parameters of its stage, and it applies normalised parameters to
a query.  Between the two the parameters are a document.

* `Builtin.format`, `Builtin.run` — what the hooks of this library do;
* `Handler` — what a custom hook does; `Handler.unfinished` does neither;
* `Hook.format`, `Hook.run` — what any hook does, given the handlers of custom ones.
-/

variable {m : Type → Type} [Monad m]

namespace Builtin

/-- Normalises the parameters of a stage. -/
def format (b : Builtin) (q : Query) (request : Json) (context : Context m) :
    ExceptT Error m Json :=
  match b with
  | search => liftOutcome ((StrictSearch.normalise q request).map Criteria.encode)
  | lenientSearch => liftOutcome ((LenientSearch.normalise q request).map Criteria.encode)
  | sort => liftOutcome ((StrictSort.normalise q request).map SortKeys.encode)
  | lenientSort => liftOutcome ((LenientSort.normalise q request).map SortKeys.encode)
  | offsetPage => OffsetPage.encode <$> OffsetPage.normalise q request context
  | keysetPage =>
    liftOutcome ((KeysetPage.normalise q request context.perPage).map KeysetPage.encode)

/-- A typed value of normalised parameters. -/
def decoded {α : Type} (outcome : Except DecodeError α) : Except Error α :=
  outcome.mapError .ofDecoding

/-- Applies normalised parameters to a query. -/
def run (b : Builtin) (q : Query) (document : Json) : Except Error Query :=
  match b with
  | search => decoded (Criteria.decode document) >>= q.searchAll
  | lenientSearch => decoded (Criteria.decode document) >>= q.searchAllLeniently
  | sort | lenientSort => decoded (SortKeys.decode document) >>= q.sortAll
  | offsetPage => (decoded (OffsetPage.decode document)).map q.page
  | keysetPage => decoded (KeysetPage.decode document) >>= q.pageAfter

end Builtin

/-- What a custom hook does. -/
structure Handler (m : Type → Type) where
  format : Query → Json → Context m → ExceptT Error m Json
  run : Query → Json → Except Error Query

namespace Handler

/-- The normalising of a hook that has none. -/
def noFormat (label : String) : Query → Json → Context m → ExceptT Error m Json :=
  fun _ _ _ => throw (.notImplemented label "format_params")

/-- The applying of a hook that has none. -/
def noRun (label : String) : Query → Json → Except Error Query :=
  fun _ _ => .error (.notImplemented label "run")

/-- The handler of a hook that does nothing yet. -/
def unfinished (label : String) : Handler m := ⟨noFormat label, noRun label⟩

end Handler

namespace Hook

/-- Normalises the parameters of a stage. -/
def format (custom : String → Handler m) (hook : Hook) (q : Query) (request : Json)
    (context : Context m) : ExceptT Error m Json :=
  match hook with
  | builtin b => b.format q request context
  | .custom label => (custom label).format q request context

/-- Applies normalised parameters to a query. -/
def run (custom : String → Handler m) (hook : Hook) (q : Query) (document : Json) :
    Except Error Query :=
  match hook with
  | builtin b => b.run q document
  | .custom label => (custom label).run q document

end Hook

end Listing
