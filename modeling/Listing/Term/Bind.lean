import Listing.Calendar.Reader
import Listing.Number.Layout
import Listing.Term.Basic
import Listing.Uuid

namespace Listing

/-!
# Binding terms to parameters

A term is sent to the database in the binary form of the type that the statement's parameter has.
The types of requests are loose, so a number in a text binds to a number column, and a whole float
to an integer column.

* `SqlType` — the types of parameters;
* `BindError` — why a term has no form in a type;
* `Term.bind` — the binary form of a term, none for null;
* `Term.bindChecked` — the same for the types that terms are meant for.
-/

/-- The type of a parameter. -/
inductive SqlType
  | bool
  | int2
  | int4
  | int8
  | float4
  | float8
  | text
  | varchar
  | bpchar
  | name
  | unknown
  | date
  | timestamp
  | timestamptz
  | uuid
  | json
  | bytea
  | numeric
  | time
  | char
  deriving DecidableEq, Repr

namespace SqlType

/-- The name of a type in the database. -/
def typeName : SqlType → String
  | bool => "bool"
  | int2 => "int2"
  | int4 => "int4"
  | int8 => "int8"
  | float4 => "float4"
  | float8 => "float8"
  | text => "text"
  | varchar => "varchar"
  | bpchar => "bpchar"
  | name => "name"
  | unknown => "unknown"
  | date => "date"
  | timestamp => "timestamp"
  | timestamptz => "timestamptz"
  | uuid => "uuid"
  | json => "json"
  | bytea => "bytea"
  | numeric => "numeric"
  | time => "time"
  | char => "char"

/-- All types. -/
def all : List SqlType :=
  [bool, int2, int4, int8, float4, float8, text, varchar, bpchar, name, unknown, date, timestamp,
    timestamptz, uuid, json, bytea, numeric, time, char]

/-- The type of a name. -/
def ofName? (s : String) : Option SqlType := all.find? fun t => t.typeName == s

/-- Whether values of the type are plain text. -/
def isText : SqlType → Bool
  | text | varchar | bpchar | name | unknown => true
  | _ => false

/-- Whether terms are meant to bind to the type. -/
def acceptsTerms : SqlType → Bool
  | json | bytea | numeric | time | char => false
  | _ => true

/-- The number of bytes of an integer type. -/
def intWidth? : SqlType → Option Nat
  | int2 => some 2
  | int4 => some 4
  | int8 => some 8
  | _ => none

end SqlType

/-- The kinds of number in binding errors. -/
inductive NumberKind
  | integer
  | float
  deriving DecidableEq, Repr

/-- Why a term has no binary form in a type. -/
inductive BindError
  | notInt (fault : Number.IntFault)
  | aboveRange
  | belowRange
  | notFloat (fault : Number.FloatFault)
  | notBool
  | notDate
  | notUuid
  | wrongType
  | noForm (kind : NumberKind) (type : SqlType)
  | listTerm
  deriving DecidableEq, Repr

namespace BindError

/-- The wording of the error; a date or identifier that cannot be read has none of its own. -/
def message : BindError → String
  | notInt .empty => "cannot parse integer from empty string"
  | notInt .invalidDigit => "invalid digit found in string"
  | notInt .tooLarge => "number too large to fit in target type"
  | notInt .tooSmall => "number too small to fit in target type"
  | aboveRange => "number too large to fit in target type"
  | belowRange => "number too small to fit in target type"
  | notFloat .empty => "cannot parse float from empty string"
  | notFloat .invalid => "invalid float literal"
  | notBool => "provided string was not `true` or `false`"
  | noForm .integer type => "cannot bind integer term as " ++ type.typeName
  | noForm .float type => "cannot bind float term as " ++ type.typeName
  | listTerm => "list terms must be expanded before binding"
  | notDate | notUuid | wrongType => ""

end BindError

/-! ### Bytes -/

namespace Bytes

/-- The `width` lowest bytes of a natural number, the most significant first. -/
def ofNat : Nat → Nat → List UInt8
  | 0, _ => []
  | width + 1, n => UInt8.ofNat (n / 256 ^ width) :: ofNat width n

/-- The two's complement form of an integer in `width` bytes. -/
def ofInt (width : Nat) (n : Int) : List UInt8 := ofNat width (n % (256 ^ width : Nat)).toNat

/-- The bytes of a text in UTF-8. -/
def ofText (text : List Char) : List UInt8 := text.flatMap String.utf8EncodeChar

end Bytes

/-! ### Binding -/

namespace Term

open Number (Binary64 Binary32 FloatValue)

/-- The form of an integer in an integer type of `width` bytes. -/
def bindWidth (width : Nat) (n : Int64) : Except BindError (List UInt8) :=
  let bound : Int := (2 ^ (8 * width - 1) : Nat)
  if bound ≤ n.toInt then .error .aboveRange
  else if n.toInt < -bound then .error .belowRange
  else .ok (Bytes.ofInt width n.toInt)

/-- The form of an integer. -/
def bindInt (n : Int64) (type : SqlType) : Except BindError (List UInt8) :=
  match type with
  | .int2 => bindWidth 2 n
  | .int4 => bindWidth 4 n
  | .int8 => bindWidth 8 n
  | .float4 => .ok (Bytes.ofNat 4 (Binary32.ofInt n.toInt).bits.toNat)
  | .float8 => .ok (Bytes.ofNat 8 (Binary64.ofInt n.toInt).bits.toNat)
  | _ =>
    if type.isText then .ok (Bytes.ofText (Number.intDigits n.toInt))
    else .error (.noForm .integer type)

/-- The integer nearest to `n` among those of 64 bits. -/
def clampInt64 (n : Int) : Int64 :=
  Int64.ofInt (max (-(2 ^ 63 : Nat)) (min ((2 ^ 63 : Nat) - 1) n))

/-- The 64-bit integer of a whole float, the nearest one if it is out of range. -/
def wholeInt64? (x : Binary64) : Option Int64 :=
  match x.value with
  | .finite negative units scale =>
    -- the exact value as a quotient, of which one side is 1
    let num := units * 2 ^ scale.toNat
    let den := 2 ^ (-scale).toNat
    if num % den = 0 then
      let n : Int := (num / den : Nat)
      some (clampInt64 (if negative then -n else n))
    else none
  | _ => none

/-- The form of a float. -/
def bindFloat (x : Binary64) (type : SqlType) : Except BindError (List UInt8) :=
  match type with
  | .float4 => .ok (Bytes.ofNat 4 (Binary32.ofValue x.value).bits.toNat)
  | .float8 => .ok (Bytes.ofNat 8 x.bits.toNat)
  | .int2 | .int4 | .int8 =>
    match wholeInt64? x with
    | some n => bindInt n type
    | none => .error (.noForm .float type)
  | _ =>
    if type.isText then .ok (Bytes.ofText (Number.plainLayout.chars x))
    else .error (.noForm .float type)

/-- The one byte of a truth value. -/
def boolByte (b : Bool) : List UInt8 := [if b then 1 else 0]

/-- The form of a text, read between the blanks at its ends for every type but text. -/
def bindText (s : String) (type : SqlType) : Except BindError (List UInt8) :=
  let inner := Text.trim s.toList
  match type with
  | .int2 | .int4 | .int8 =>
    match Number.readInt64 inner with
    | .ok n => bindInt n type
    | .error fault => .error (.notInt fault)
  | .float4 | .float8 =>
    -- for the narrow type the text is rounded twice, first to 64 bits
    match Number.readBinary64 inner with
    | .ok x => bindFloat x type
    | .error fault => .error (.notFloat fault)
  | .bool =>
    match readBool (String.ofList inner) with
    | some b => .ok (boolByte b)
    | none => .error .notBool
  | .date =>
    match Calendar.readDate inner with
    | some date => .ok (Bytes.ofInt 4 date.daysSince2000)
    | none => .error .notDate
  | .timestamp =>
    match Calendar.readDateTime inner with
    | some t => .ok (Bytes.ofInt 8 t.microsSince2000)
    | none => .error .notDate
  | .timestamptz =>
    match Calendar.readInstant inner with
    | some nanos => .ok (Bytes.ofInt 8 (nanos.tdiv 1000))
    | none => .error .notDate
  | .uuid =>
    match Uuid.read inner with
    | some bytes => .ok bytes
    | none => .error .notUuid
  | _ => .ok (Bytes.ofText s.toList)

/-- The binary form of a term in a type; null has none. -/
def bind (type : SqlType) : Term → Except BindError (Option (List UInt8))
  | null => .ok none
  | bool b =>
    if type.isText then .ok (some (Bytes.ofText (if b then "true" else "false").toList))
    -- one byte for any other type, whatever that type's width
    else .ok (some (boolByte b))
  | int n => (bindInt n type).map some
  | float x => (bindFloat x type).map some
  | text s => (bindText s type).map some
  | list _ => .error .listTerm

/-- The binary form of a term in a type that terms are meant for. -/
def bindChecked (type : SqlType) (term : Term) : Except BindError (Option (List UInt8)) :=
  if type.acceptsTerms then bind type term else .error .wrongType

end Term

end Listing
