import Listing.Error
import Listing.Join.Kind
import Listing.Json.Relay

namespace Listing

/-!
# Join paths

The associations that a request follows from an entity to the one whose field it names, each with
its kind of join.

* `JoinStep`, `JoinPath` — one association, and a list of them; the empty path stays where it is;
* `JoinPath.parse` — reads a path: null or a list of steps, a step being a name or an object from a
  kind to a name;
* `JoinPath.encode`, `JoinPath.decode` — the document of a path, and the path of a document.
-/

/-- One association of a path. -/
structure JoinStep where
  kind : JoinKind
  relation : String
  deriving DecidableEq, Repr

/-- The associations from an entity to another, in order. -/
abbrev JoinPath := List JoinStep

namespace JoinKind

/-- Reads the kind of a name. -/
def parse (name : String) : Except Error JoinKind :=
  match ofName? name with
  | some kind => .ok kind
  | none => .error (.invalidParams (.unknownJoinKind name))

end JoinKind

namespace JoinStep

/-- Reads a step: a name stands for an inner join. -/
def parse : Json → Except Error JoinStep
  | .str relation => .ok ⟨.inner, relation⟩
  | .obj [(kind, .str relation)] => do
    let kind ← JoinKind.parse kind
    return ⟨kind, relation⟩
  | .obj [(kind, _)] => .error (.invalidParams (.stepWithoutRelation kind))
  | other => .error (.invalidParams (.notAStep other))

/-- Reads a step inside a document that is being decoded. -/
def decode (document : Json) : Except DecodeError JoinStep :=
  (parse document).mapError fun e => .relay e.message

/-- The document of a step. -/
def encode (step : JoinStep) : Json := .obj [(step.kind.wireName, .str step.relation)]

/-- A step that is written is read back. -/
theorem parse_encode (step : JoinStep) : parse step.encode = .ok step := by
  simp [encode, parse, JoinKind.parse, bind, Except.bind, pure, Except.pure]

end JoinStep

namespace JoinPath

/-- Reads a path; null is the empty one. -/
def parse : Json → Except Error JoinPath
  | .null => .ok []
  | .arr items => items.mapM JoinStep.parse
  | other => .error (.invalidParams (.notAPath other))

/-- Reads a path inside a document that is being decoded; it has to be a list. -/
def decode (document : Json) : Except DecodeError JoinPath := do
  let items ← document.asItems
  items.mapM JoinStep.decode

/-- The document of a path. -/
def encode (path : JoinPath) : Json := .arr (path.map JoinStep.encode)

end JoinPath

end Listing
