import Listing.Error
import Listing.Page.Offset

namespace Listing

/-!
# Parameters of a request

* `Params` — the parameters of the stages, by stage and in request order; null stands for none.
-/

/-- The parameters of the stages of a request, in request order. -/
structure Params where
  entries : Dict Json

namespace Params

/-- A request without parameters. -/
def empty : Params := ⟨[]⟩

/-- The parameters of a document: an object, or null for none. -/
def ofJson : Json → Except Error Params
  | .obj fields => .ok ⟨fields⟩
  | .null => .ok empty
  | other => .error (.invalidParams (.notParams other))

/-- The parameters of a stage, if they are there and not null. -/
def get? (p : Params) (stage : String) : Option Json :=
  (Dict.get? p.entries stage).filter fun value => !value.isNull

/-- Whether a stage has parameters. -/
def contains (p : Params) (stage : String) : Bool := (p.get? stage).isSome

/-- Puts the parameters of a stage in place. -/
def set (p : Params) (stage : String) (value : Json) : Params :=
  ⟨Dict.insert stage value p.entries⟩

/-- The page of a request that has been normalised. -/
def page? (p : Params) : Option OffsetPage :=
  (p.get? "paginate").bind fun value => (OffsetPage.decode value).toOption

/-- The document of the parameters. -/
def toJson (p : Params) : Json := .obj p.entries

/-- Equality of parameters, whatever the order of stages. -/
def same (p r : Params) : Bool := p.toJson.same r.toJson

end Params

end Listing
