import Listing.Error
import Listing.Number.Reader
import Listing.Text.Blank

namespace Listing.Request

/-!
# Parts of requests

What the hooks share in reading the parameters of a stage.

* `Request.object` — parameters that have to be an object;
* `Request.integer` — an integer under a key, given as a number or as a text;
* `Request.term` — a term;
* `Request.scope` — a reference to a named scope with its value.
-/

/-- Parameters that have to be an object. -/
def object (hook : String) : Json → Except Error (Dict Json)
  | .obj fields => .ok fields
  | other => .error (.invalidParams (.notAnObject hook other))

/-- The integer under a key, if it is there and not null. -/
def integer (fields : Dict Json) (key : String) : Except Error (Option Int64) :=
  match Dict.get? fields key with
  | none => .ok none
  | some .null => .ok none
  | some (.num (.int n)) => .ok (some n)
  | some (.str s) =>
    match Number.readInt64 (Text.trim s.toList) with
    | .ok n => .ok (some n)
    | .error _ => .error (.invalidParams (.notAnInteger key (.str s)))
  | some other => .error (.invalidParams (.notAnInteger key other))

/-- The term of a document. -/
def term (document : Json) : Except Error Term := (Term.decode document).mapError .ofDecoding

/-- The scope that an object refers to, with the value it is given. -/
def scope (fields : Dict Json) : Except Error (Option (String × Term)) :=
  match Dict.get? fields "scope" with
  | none => .ok none
  | some (.str name) =>
    match Dict.get? fields "value" with
    | none => .ok (some (name, .null))
    | some value => (term value).map fun t => some (name, t)
  | some _ => .error (.invalidParams .scopeNotName)

end Listing.Request
