import Listing.Json.Printer
import Listing.Text.Outline

namespace Listing

/-!
# Decoding documents

The rules by which a typed value is read from a document, and the causes for which one is refused.

* `DecodeError` — the causes, with their wording in `DecodeError.message`;
* `Json.asInt64`, `Json.asBool`, `Json.asString`, `Json.asItems`, `Json.asFields` — documents of
  one kind;
* `Json.asVariant` — a name out of a closed list, alone or as the only key of an object;
* `Json.Record` — records with named fields, written as an object or as a list in field order.
-/

/-- Why a document is not a value of the wanted type. -/
inductive DecodeError
  | missingField (name : String)
  | invalidType (got : Json) (want : String)
  | invalidValue (got : Json) (want : String)
  | unknownVariant (name : String) (known : List String)
  | invalidLength (length : Nat) (want : String)
  | custom (message : String)

namespace DecodeError

/-- The kind of a document, with its value if it is a scalar. -/
def describe : Json → String
  | .null => "null"
  | .bool b => "boolean `" ++ Text.Outline.bool b ++ "`"
  | .num (.int n) => "integer `" ++ Number.intText n.toInt ++ "`"
  | .num (.large n _) => "integer `" ++ Number.natText n.toNat ++ "`"
  | .num (.float x) => "floating point `" ++ Number.documentLayout.text x ++ "`"
  | .str s => "string " ++ Text.quoted s
  | .arr _ => "sequence"
  | .obj _ => "map"

/-- The known names of a choice. -/
def choice (known : List String) : String :=
  match known.map fun name => "`" ++ name ++ "`" with
  | [] => "there are no variants"
  | [a] => "expected " ++ a
  | [a, b] => "expected " ++ a ++ " or " ++ b
  | names => "expected one of " ++ ", ".intercalate names

/-- The wording of the cause. -/
def message : DecodeError → String
  | missingField name => "missing field `" ++ name ++ "`"
  | invalidType got want => "invalid type: " ++ describe got ++ ", expected " ++ want
  | invalidValue got want => "invalid value: " ++ describe got ++ ", expected " ++ want
  | unknownVariant name known => "unknown variant `" ++ name ++ "`, " ++ choice known
  | invalidLength length want =>
    "invalid length " ++ Number.natText length ++ ", expected " ++ want
  | custom text => text

end DecodeError

namespace Json

/-! ### Documents of one kind -/

/-- An integer of 64 bits. -/
def asInt64 : Json → Except DecodeError Int64
  | .num (.int n) => .ok n
  | .num (.large n h) => .error (.invalidValue (.num (.large n h)) "i64")
  | other => .error (.invalidType other "i64")

/-- A truth value. -/
def asBool : Json → Except DecodeError Bool
  | .bool b => .ok b
  | other => .error (.invalidType other "a boolean")

/-- A string. -/
def asString : Json → Except DecodeError String
  | .str s => .ok s
  | other => .error (.invalidType other "a string")

/-- The items of a list. -/
def asItems : Json → Except DecodeError (List Json)
  | .arr items => .ok items
  | other => .error (.invalidType other "a sequence")

/-- The fields of an object. -/
def asFields : Json → Except DecodeError (Dict Json)
  | .obj fields => .ok fields
  | other => .error (.invalidType other "a map")

/-- A value, or none for null. -/
def asOption {α : Type} (decode : Json → Except DecodeError α) :
    Json → Except DecodeError (Option α)
  | .null => .ok none
  | other => (decode other).map some

/-- Looks a name up among the known ones. -/
def variantNamed {α : Type} (known : List (String × α)) (name : String) : Except DecodeError α :=
  match known.lookup name with
  | some value => .ok value
  | none => .error (.unknownVariant name (known.map Prod.fst))

/-- A known name: a string, or an object whose only field has it as key and null as value. -/
def asVariant {α : Type} (known : List (String × α)) : Json → Except DecodeError α
  | .str name => variantNamed known name
  | .obj [(name, content)] => do
    let value ← variantNamed known name
    if content.isNull then return value else throw (.invalidType content "unit")
  | .obj fields => .error (.invalidValue (.obj fields) "map with a single key")
  | other => .error (.invalidType other "string or map")

/-! ### Records -/

namespace Record

/-- What a record's decoder finds wrong with the value of one field. -/
structure Slot where
  key : String
  fault : Json → Option DecodeError

/-- The field under `key` that `decode` reads. -/
def Slot.of {α : Type} (key : String) (decode : Json → Except DecodeError α) : Slot :=
  ⟨key, fun value =>
    match decode value with
    | .ok _ => none
    | .error e => some e⟩

/-- The fault of one entry; an unknown key has none. -/
def entryFault (slots : List Slot) (key : String) (value : Json) : Option DecodeError :=
  (slots.find? fun slot => slot.key == key).bind fun slot => slot.fault value

/-- Values are read in the order of the entries, so the first faulty one decides. -/
def check (slots : List Slot) (entries : Dict Json) : Except DecodeError Unit :=
  match entries.findSome? fun entry => entryFault slots entry.1 entry.2 with
  | some e => .error e
  | none => .ok ()

/-- A value that the decoder of its field reads is not at fault. -/
theorem entryFault_of_ok {α : Type} {slots : List Slot} {key : String} {value : Json} {result : α}
    {decode : Json → Except DecodeError α}
    (hslot : slots.find? (fun slot => slot.key == key) = some (.of key decode))
    (h : decode value = .ok result) : entryFault slots key value = none := by
  rw [entryFault, hslot, Option.bind_some, Slot.of]
  simp only
  rw [h]

/-- A record without a faulty entry passes. -/
theorem check_ok {slots : List Slot} {entries : Dict Json}
    (h : ∀ entry ∈ entries, entryFault slots entry.1 entry.2 = none) :
    check slots entries = .ok () := by
  have hnone : entries.findSome? (fun entry => entryFault slots entry.1 entry.2) = none :=
    List.findSome?_eq_none_iff.mpr h
  rw [check, hnone]

/-- The value of a field that has to be there. -/
def required {α : Type} (entries : Dict Json) (key : String)
    (decode : Json → Except DecodeError α) : Except DecodeError α :=
  match Dict.get? entries key with
  | some value => decode value
  | none => .error (.missingField key)

/-- The value of a field, or a default if it is left out. -/
def optional {α : Type} (entries : Dict Json) (key : String)
    (decode : Json → Except DecodeError α) (default : α) : Except DecodeError α :=
  match Dict.get? entries key with
  | some value => decode value
  | none => .ok default

/-- The item of a record written as a list that has to be there. -/
def item {α : Type} (items : List Json) (index : Nat) (want : String)
    (decode : Json → Except DecodeError α) : Except DecodeError α :=
  match items[index]? with
  | some value => decode value
  | none => .error (.invalidLength index want)

/-- The item of a record written as a list, or a default if the list ends before it. -/
def itemOr {α : Type} (items : List Json) (index : Nat)
    (decode : Json → Except DecodeError α) (default : α) : Except DecodeError α :=
  match items[index]? with
  | some value => decode value
  | none => .ok default

/-- A record written as a list has no more items than fields. -/
def atMost (items : List Json) (count : Nat) : Except DecodeError Unit :=
  if items.length ≤ count then .ok ()
  else .error (.invalidLength items.length "fewer elements in array")

/-- A record: an object, a list of the fields in order, or nothing else. -/
def decode {α : Type} (name : String) (ofFields : Dict Json → Except DecodeError α)
    (ofItems : List Json → Except DecodeError α) : Json → Except DecodeError α
  | .obj fields => ofFields fields
  | .arr items => ofItems items
  | other => .error (.invalidType other ("struct " ++ name))

end Record

end Json

end Listing
