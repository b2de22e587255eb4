import Listing.Proofs.Calendar.Range
import Listing.Proofs.Term.Integer
import Listing.Proofs.Term.Whole

namespace Listing

/-!
# The width of bound terms

A column of a fixed width takes that many bytes.  Integers, floats and texts are brought into its
type before they are written, so they have its width or fail; a truth value is written as it is, by
one byte, whatever the type.

* `SqlType.width?` — the types of fixed width, with the width;
* `Term.HasForm` — the terms that stand for a value of such a type, said without the bytes;
* `Uuid.length_read` — an identifier has sixteen bytes, in each of its written forms;
* `Term.length_bindInt`, `Term.length_bindFloat`, `Term.length_bindText` — one lemma for each kind
  of term that is brought into a type;
* `Term.bound_width` — the width of what binds, and what fails.
-/

/-! ### Types of fixed width -/

namespace SqlType

/-- The number of bytes of each value of a type, for the types of fixed width that terms are meant
for. -/
def width? : SqlType → Option Nat
  | bool => some 1
  | int2 => some 2
  | int4 | float4 | date => some 4
  | int8 | float8 | timestamp | timestamptz => some 8
  | uuid => some 16
  | _ => none

/-- Of the types that terms are meant for only those of texts have no fixed width. -/
theorem isSome_width?_iff (type : SqlType) :
    type.width?.isSome = true ↔ type.acceptsTerms = true ∧ type.isText = false := by
  cases type <;> decide

/-- Whether the values of a type are floats. -/
def IsFloat (type : SqlType) : Prop := type = float4 ∨ type = float8

/-- A text without blanks at its ends that is the written form of a value of a type. -/
def Reads (type : SqlType) (text : List Char) : Prop :=
  match type with
  | bool => text = "true".toList ∨ text = "false".toList
  | int2 => ∃ v, Number.Numeral text v ∧ Bytes.Fits 2 v
  | int4 => ∃ v, Number.Numeral text v ∧ Bytes.Fits 4 v
  | int8 => ∃ v, Number.Numeral text v ∧ Bytes.Fits 8 v
  | float4 | float8 => ∃ x, Number.readBinary64 text = .ok x
  | date => ∃ date, Calendar.readDate text = some date ∧ Bytes.Fits 4 date.daysSince2000
  | timestamp => ∃ t, Calendar.readDateTime text = some t ∧ Bytes.Fits 8 t.microsSince2000
  | timestamptz => ∃ nanos, Calendar.readInstant text = some nanos ∧
      Bytes.Fits 8 (nanos.tdiv 1000)
  | uuid => ∃ bytes, Uuid.read text = some bytes
  | _ => False

end SqlType

/-! ### Identifiers -/

namespace Uuid

variable {text digits : List Char} {form : List UInt8}

/-- Two digits make a byte. -/
theorem length_bytes (h : bytes text = some form) : 2 * form.length = text.length := by
  fun_induction bytes text generalizing form with
  | case1 => cases h; rfl
  | case2 high low rest ih =>
    simp only [Option.bind_eq_bind, Option.bind_eq_some_iff] at h
    obtain ⟨a, -, b, -, more, hmore, hform⟩ := h
    cases hform
    have := ih hmore
    simp only [List.length_cons]
    omega
  | case3 c => cases h

/-- Between the hyphens of 36 characters stand 32 digits. -/
theorem length_withoutHyphens (htext : text.length = 36) (h : withoutHyphens text = some digits) :
    digits.length = 32 := by
  unfold withoutHyphens at h
  split at h
  · cases h
    simp [htext]
  · cases h

/-- An identifier has sixteen bytes, whichever of its forms is read. -/
theorem length_read (h : read text = some form) : form.length = 16 := by
  have hhyphens {inner : List Char} (hinner : inner.length = 36)
      (hread : (withoutHyphens inner).bind bytes = some form) : form.length = 16 := by
    obtain ⟨digits, hdigits, hbytes⟩ := Option.bind_eq_some_iff.mp hread
    have htwice := length_bytes hbytes
    have hcount := length_withoutHyphens hinner hdigits
    omega
  -- four notations, told apart by their lengths and their ends
  unfold read at h
  split at h
  case isTrue hlength =>
    have htwice := length_bytes h
    omega
  case isFalse =>
    split at h
    case isTrue hlength => exact hhyphens hlength h
    case isFalse =>
      split at h
      case isTrue hbraces => exact hhyphens (by simp [hbraces.1]) h
      case isFalse =>
        split at h
        case isTrue hurn => exact hhyphens (by simp [hurn.1]) h
        case isFalse => cases h

end Uuid

/-! ### The width of each kind of term -/

namespace Term

open Number (Binary64)

variable {type : SqlType} {width : Nat} {t : Term} {n : Int64} {x : Binary64} {s : String}
  {bytes : List UInt8}

/-- An integer is bound in the width of the type. -/
theorem length_bindInt (hwidth : type.width? = some width) (h : bindInt n type = .ok bytes) :
    bytes.length = width := by
  cases type <;> cases hwidth
  case int2 | int4 | int8 => exact ((bindInt_eq_ok_iff rfl).mp h).2.1
  case float4 | float8 =>
    cases h
    exact Bytes.length_ofNat _ _
  all_goals cases h

/-- So is a float, where it is bound at all. -/
theorem length_bindFloat (hwidth : type.width? = some width) (h : bindFloat x type = .ok bytes) :
    bytes.length = width := by
  cases type <;> cases hwidth
  case int2 | int4 | int8 =>
    rw [bindFloat_of_intWidth? rfl] at h
    cases hwhole : wholeInt64? x with
    | none =>
      rw [hwhole, Option.elim_none] at h
      cases h
    | some m =>
      rw [hwhole, Option.elim_some] at h
      exact length_bindInt rfl h
  case float4 | float8 =>
    cases h
    exact Bytes.length_ofNat _ _
  all_goals cases h

/-- A text is first read as a value of the type, and that value is written. -/
theorem length_bindText (hwidth : type.width? = some width) (h : bindText s type = .ok bytes) :
    bytes.length = width := by
  cases type <;> cases hwidth <;> simp only [bindText] at h
  -- a number that was read is bound as a term of its own
  case int2 | int4 | int8 =>
    split at h
    · exact length_bindInt rfl h
    · cases h
  case float4 | float8 =>
    split at h
    · exact length_bindFloat rfl h
    · cases h
  case bool =>
    split at h
    · cases h
      rfl
    · cases h
  case date | timestamp | timestamptz =>
    split at h
    · cases h
      exact Bytes.length_ofInt _ _
    · cases h
  case uuid =>
    split at h
    · rename_i hread
      cases h
      exact Uuid.length_read hread
    · cases h

/-! ### What fails -/

/-- Whether a term stands for a value of a type of fixed width, rounded if the type is a float. -/
def HasForm (type : SqlType) : Term → Prop
  | null => False
  | bool _ => type = .bool
  | int n => type.IsFloat ∨ ∃ width, type.intWidth? = some width ∧ Bytes.Fits width n.toInt
  | float x => type.IsFloat ∨
      ∃ width, type.intWidth? = some width ∧ ∃ v : ℤ, x.toRat? = some (v : ℚ) ∧ Bytes.Fits width v
  | text s => type.Reads (Text.trim s.toList)
  | list _ => False

/-- An integer fails to bind to a type exactly if it stands for no value of it. -/
theorem int_error_iff (hwidth : type.width? = some width) :
    (∃ e, bind type (.int n) = .error e) ↔ ¬ HasForm type (.int n) := by
  cases type <;> cases hwidth
  case int2 | int4 | int8 =>
    rw [bind_int_error_iff rfl]
    simp [HasForm, SqlType.IsFloat, SqlType.intWidth?]
  all_goals
    simp [HasForm, SqlType.IsFloat, SqlType.intWidth?, bind, bindInt, Except.map, SqlType.isText]

/-- A float that stands for no value of a type fails to bind, unless it is whole and the type has 64
bits: beyond the range it is bound to the end of it. -/
theorem float_error_iff (hwidth : type.width? = some width) :
    (∃ e, bind type (.float x) = .error e) ↔
      ¬ HasForm type (.float x) ∧ ¬ (type = .int8 ∧ ∃ v : ℤ, x.toRat? = some (v : ℚ)) := by
  cases type <;> cases hwidth
  case int2 | int4 =>
    rw [bind_float_error_iff rfl]
    simp [HasForm, SqlType.IsFloat, SqlType.intWidth?]
  case int8 =>
    -- every whole number binds, whether it fits or not
    rw [bind_float_error_iff rfl]
    simp only [HasForm, SqlType.IsFloat, SqlType.intWidth?, or_true, not_true_eq_false, imp_false]
    simp
    exact fun hnone v hv => absurd hv (hnone v)
  all_goals
    simp [HasForm, SqlType.IsFloat, SqlType.intWidth?, bind, bindFloat, Except.map, SqlType.isText]

/-- The truth values are spelt in one way each. -/
theorem readBool_isSome_iff (text : List Char) :
    (readBool (String.ofList text)).isSome = true ↔
      text = "true".toList ∨ text = "false".toList := by
  have hlist (word : String) : String.ofList text = word ↔ text = word.toList := by
    rw [← String.toList_inj, String.toList_ofList]
  rw [← hlist, ← hlist]
  unfold readBool
  split <;> simp_all

/-- A text fails to bind exactly if it spells no value of the type. -/
theorem text_error_iff (hwidth : type.width? = some width) :
    (∃ e, bind type (.text s) = .error e) ↔ ¬ HasForm type (.text s) := by
  cases type <;> cases hwidth
  case int2 | int4 | int8 =>
    rw [bind_text_error_iff rfl]
    simp [HasForm, SqlType.Reads, Number.spells_iff]
  case float4 | float8 =>
    simp only [bind, bindText, HasForm, SqlType.Reads]
    cases Number.readBinary64 (Text.trim s.toList) <;> simp [bindFloat, Except.map]
  -- every date and instant that is read is in range
  case date =>
    simp only [bind, bindText, HasForm, SqlType.Reads]
    cases hread : Calendar.readDate (Text.trim s.toList) with
    | none => simp [Except.map]
    | some date =>
      have hfits : Bytes.Fits 4 date.daysSince2000 := Calendar.days_of_readDate hread
      simp [Except.map, hfits]
  case timestamp =>
    simp only [bind, bindText, HasForm, SqlType.Reads]
    cases hread : Calendar.readDateTime (Text.trim s.toList) with
    | none => simp [Except.map]
    | some t =>
      have hfits : Bytes.Fits 8 t.microsSince2000 := Calendar.micros_of_readDateTime hread
      simp [Except.map, hfits]
  case timestamptz =>
    simp only [bind, bindText, HasForm, SqlType.Reads]
    cases hread : Calendar.readInstant (Text.trim s.toList) with
    | none => simp [Except.map]
    | some nanos =>
      have hfits : Bytes.Fits 8 (nanos.tdiv 1000) := Calendar.micros_of_readInstant hread
      simp [Except.map, hfits]
  case uuid =>
    simp only [bind, bindText, HasForm, SqlType.Reads]
    cases Uuid.read (Text.trim s.toList) <;> simp [Except.map]
  case bool =>
    simp only [bind, bindText, HasForm, SqlType.Reads, ← readBool_isSome_iff]
    cases readBool (String.ofList (Text.trim s.toList)) <;> simp [Except.map]

/-- No other check is made of a type with a fixed width. -/
theorem bindChecked_of_width? (hwidth : type.width? = some width) :
    bindChecked type t = bind type t := by cases type <;> cases hwidth <;> rfl

/-- **Bound terms have their width.** What `bindChecked` makes for a type of fixed width
(`SqlType.width?`) has that width, and what stands for no value of the type (`Term.HasForm`) fails,
but for two kinds of terms: a truth value is one byte in every type, and to eight bytes every whole
float binds. -/
theorem bound_width (hwidth : type.width? = some width) (hnull : t ≠ .null) :
    (∀ bytes, bindChecked type t = .ok (some bytes) →
      bytes.length = width ∨ type ≠ .bool ∧ ∃ b, t = .bool b ∧ bytes = boolByte b) ∧
    ((∃ e, bindChecked type t = .error e) ↔
      ¬ t.HasForm type ∧ (∀ b, t ≠ .bool b) ∧
        ¬ (type = .int8 ∧ ∃ (x : Binary64) (v : ℤ), t = .float x ∧ x.toRat? = some (v : ℚ))) := by
  rw [bindChecked_of_width? hwidth]
  cases t with
  | null => exact absurd rfl hnull
  | bool b =>
    -- none of these is a text type, so all of them take the byte
    have hbind : bind type (.bool b) = .ok (some (boolByte b)) := by
      cases type <;> cases hwidth <;> rfl
    rw [hbind]
    refine ⟨?_, by simp⟩
    rintro bytes ⟨⟩
    by_cases hbool : type = .bool
    · subst hbool
      cases hwidth
      exact .inl rfl
    · exact .inr ⟨hbool, b, rfl, rfl⟩
  | int n =>
    refine ⟨fun bytes h => .inl (length_bindInt hwidth (map_some_eq_ok_iff.mp h)), ?_⟩
    simp [int_error_iff hwidth]
  | float x =>
    refine ⟨fun bytes h => .inl (length_bindFloat hwidth (map_some_eq_ok_iff.mp h)), ?_⟩
    simp [float_error_iff hwidth]
  | text s =>
    refine ⟨fun bytes h => .inl (length_bindText hwidth (map_some_eq_ok_iff.mp h)), ?_⟩
    simp [text_error_iff hwidth]
  | list items => simp [bind, HasForm]

/-- An identifier in its longest written form has sixteen bytes. -/
theorem bound_width_urn :
    SqlType.uuid.width? = some 16 ∧ ∃ bytes,
      bindChecked .uuid (.text "\nURN:uuid:00112233-4455-6677-8899-aabbccddeeff ") =
        .ok (some bytes) ∧ bytes.length = 16 := by
  have hwidth : SqlType.uuid.width? = some 16 := rfl
  have hbound := bound_width hwidth
    (nofun : Term.text "\nURN:uuid:00112233-4455-6677-8899-aabbccddeeff " ≠ .null)
  have hbind : bindChecked .uuid (.text "\nURN:uuid:00112233-4455-6677-8899-aabbccddeeff ") =
      .ok (some [0x00, 0x11, 0x22, 0x33, 0x44, 0x55, 0x66, 0x77, 0x88, 0x99, 0xaa, 0xbb, 0xcc,
        0xdd, 0xee, 0xff]) := by decide +kernel
  rcases hbound.1 _ hbind with hlength | ⟨-, b, hb, -⟩
  · exact ⟨hwidth, _, hbind, hlength⟩
  · cases hb

/-- **Truth values are too narrow.** A truth value binds to a column of four bytes by one byte. -/
theorem bool_too_narrow :
    SqlType.int4.width? = some 4 ∧ bindChecked .int4 (.bool true) = .ok (some [1]) ∧
      ([1] : List UInt8).length ≠ 4 := ⟨rfl, rfl, by decide⟩

end Term

end Listing
