import Listing.Error
import Listing.Json.Relay

namespace Listing

/-!
# Fields

What a request may search, order and compute by: a column, or a template over columns.  Names are
held as the request spells them; they become identifiers when a field is resolved.

* `Field` — a column, or a template with its columns;
* `Field.parse` — reads a field: a name, or an object with `template` and `args`;
* `Field.encode`, `Field.decode` — the document of a field, and the field of a document.
-/

/-- A column, or a template over columns. -/
inductive Field
  | column (name : String)
  | computed (template : Template) (args : List String)
  deriving DecidableEq, Repr

namespace Field

/-- A template over columns, as many as it takes. -/
def compute (template : Template) (args : List String) : Except Error Field :=
  if args.length = template.arity then .ok (computed template args)
  else .error (.invalidParams (.templateArity template args.length))

/-- The template of a name. -/
def templateNamed (name : String) : Except Error Template :=
  match Template.ofName? name with
  | some t => .ok t
  | none => .error (.unsupportedTemplate name)

/-- The names that a list of documents holds. -/
def argNames : List Json → Except Error (List String)
  | [] => .ok []
  | .str name :: rest => (argNames rest).map (name :: ·)
  | _ :: _ => .error (.invalidParams .templateArgNotName)

/-- A field given by `template` and `args`. -/
def parseComputed (fields : Dict Json) : Except Error Field := do
  match (Dict.get? fields "template").bind Json.string? with
  | none => throw (.invalidParams .templateMissing)
  | some name =>
    let template ← templateNamed name
    match (Dict.get? fields "args").bind Json.items? with
    | none => throw (.invalidParams .templateArgsMissing)
    | some items =>
      let args ← argNames items
      compute template args

/-- Reads a field. -/
def parse : Json → Except Error Field
  | .str name => .ok (column name)
  | .obj fields => parseComputed fields
  | other => .error (.invalidParams (.notAField other))

/-- Reads a field inside a document that is being decoded. -/
def decode (document : Json) : Except DecodeError Field :=
  (parse document).mapError fun e => .relay e.message

/-- The document of a field. -/
def encode : Field → Json
  | column name => .str name
  | computed template args =>
    .obj [("template", .str template.wireName), ("args", .arr (args.map Json.str))]

/-- The names of the columns that a field reads. -/
def columns : Field → List String
  | column name => [name]
  | computed _ args => args

/-- Whether a computed field has as many columns as its template takes. -/
def wellFormed : Field → Bool
  | column _ => true
  | computed template args => args.length == template.arity

/-- Names are read from their documents. -/
theorem argNames_map_str (names : List String) : argNames (names.map Json.str) = .ok names := by
  induction names with
  | nil => rfl
  | cons name rest ih => simp [argNames, ih, Except.map]

/-- A well-formed field is read back from its document. -/
theorem parse_encode {field : Field} (h : field.wellFormed = true) :
    parse field.encode = .ok field := by
  cases field with
  | column name => rfl
  | computed template args =>
    have hl : args.length = template.arity := by simpa [wellFormed] using h
    simp [encode, parse, parseComputed, Dict.get?, List.lookup_cons, Json.string?, Json.items?,
      templateNamed, argNames_map_str, compute, hl, bind, Except.bind]

end Field

end Listing
