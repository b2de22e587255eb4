import Listing.Proofs.Number.Numeral
import Listing.Proofs.Term.Bytes

namespace Listing

/-!
# Integers and numerals in integer columns

An integer and a text that spells it bind alike, since a text is read before it is bound.

* `Bytes.fromUTF8?_ofText` — the written bytes of a text are read as that text;
* `Term.bind_text_of_spells` — a text binds like the integer that it spells;
* `Term.bind_text_eq_ok_iff` — no other text binds to an integer column;
* `Term.numerals_bind_alike` — what binds, to which bytes, and that an integer written into a text
  column comes back as it was.
-/

/-- The bytes of a text are read as the text. -/
theorem Bytes.fromUTF8?_ofText (text : List Char) :
    String.fromUTF8? (ofText text).toByteArray = some (String.ofList text) := by
  have hvalid : (ofText text).toByteArray.IsValidUTF8 := ⟨text, rfl⟩
  rw [String.fromUTF8?, dif_pos hvalid]
  rfl

namespace Term

variable {type : SqlType} {width : Nat} {s : String} {n : Int64} {bytes : List UInt8}

/-! ### Texts in integer columns -/

/-- A text binds to an integer type as the integer that it spells, blanks around it aside. -/
theorem bindText_of_intWidth? (h : type.intWidth? = some width) :
    bindText s type = match Number.readInt64 (Text.trim s.toList) with
      | .ok n => bindInt n type
      | .error fault => .error (.notInt fault) := by cases type <;> cases h <;> rfl

/-- A text that spells an integer binds like the integer, also if that fails. -/
theorem bind_text_of_spells (h : type.intWidth? = some width)
    (hs : Number.Spells s.toList n.toInt) : bind type (.text s) = bind type (.int n) := by
  rw [bind, bind, bindText_of_intWidth? h, Number.readInt64_trim_eq_ok_iff.mpr hs]

/-- A text that binds to an integer column spells an integer. -/
theorem bind_text_eq_ok_iff (h : type.intWidth? = some width) :
    bind type (.text s) = .ok (some bytes) ↔
      ∃ n : Int64, Number.Spells s.toList n.toInt ∧ bind type (.int n) = .ok (some bytes) := by
  constructor
  · intro hbind
    cases hread : Number.readInt64 (Text.trim s.toList) with
    | error fault =>
      rw [bind, bindText_of_intWidth? h, hread] at hbind
      cases hbind
    | ok n =>
      have hs := Number.readInt64_trim_eq_ok_iff.mp hread
      exact ⟨n, hs, by rwa [← bind_text_of_spells h hs]⟩
  · rintro ⟨n, hs, hbind⟩
    rwa [bind_text_of_spells h hs]

/-- An integer that fits into the type is one of 64 bits. -/
theorem toInt_ofInt_of_fits (h : type.intWidth? = some width) {v : ℤ} (hfits : Bytes.Fits width v) :
    (Int64.ofInt v).toInt = v := by
  obtain ⟨hlow, hhigh⟩ := SqlType.fits_of_intWidth? h hfits
  exact Int64.toInt_ofInt_of_le (by omega) (by omega)

/-- A text binds to an integer type exactly if it spells an integer that fits, and then like it. -/
theorem bind_text_iff_fits (h : type.intWidth? = some width) :
    bind type (.text s) = .ok (some bytes) ↔
      ∃ v : ℤ, Number.Spells s.toList v ∧ Bytes.Fits width v ∧
        bind type (.int (Int64.ofInt v)) = .ok (some bytes) := by
  rw [bind_text_eq_ok_iff h]
  constructor
  · rintro ⟨n, hs, hbind⟩
    refine ⟨n.toInt, hs, ((bind_int_eq_ok_iff h).mp hbind).1, ?_⟩
    rwa [Int64.ofInt_toInt]
  · rintro ⟨v, hs, hfits, hbind⟩
    refine ⟨Int64.ofInt v, ?_, hbind⟩
    rwa [toInt_ofInt_of_fits h hfits]

/-- An integer that fits has bytes. -/
theorem exists_bind_int (h : type.intWidth? = some width) (hfits : Bytes.Fits width n.toInt) :
    ∃ bytes, bind type (.int n) = .ok (some bytes) :=
  ⟨_, (bind_int_eq_ok_iff h).mpr ⟨hfits, Bytes.length_ofInt width _,
    Bytes.toInt_ofInt (SqlType.width_pos_of_intWidth? h) hfits⟩⟩

/-- An integer fails to bind exactly if it does not fit. -/
theorem bind_int_error_iff (h : type.intWidth? = some width) :
    (∃ e, bind type (.int n) = .error e) ↔ ¬ Bytes.Fits width n.toInt := by
  have hsome : int n ≠ .null := nofun
  rw [bind_error_iff hsome]
  constructor
  -- only null binds to nothing, so what has no bytes fails
  · intro hnone hfits
    obtain ⟨bytes, hbind⟩ := exists_bind_int h hfits
    exact hnone bytes hbind
  · exact fun hout bytes hbind => hout ((bind_int_eq_ok_iff h).mp hbind).1

/-- A text fails to bind exactly if it spells no integer that fits. -/
theorem bind_text_error_iff (h : type.intWidth? = some width) :
    (∃ e, bind type (.text s) = .error e) ↔
      ¬ ∃ v : ℤ, Number.Spells s.toList v ∧ Bytes.Fits width v := by
  have hsome : text s ≠ .null := nofun
  rw [bind_error_iff hsome]
  constructor
  · rintro hnone ⟨v, hs, hfits⟩
    -- what fits a column fits an integer term, so there is a term of the same integer
    have hv := toInt_ofInt_of_fits h hfits
    obtain ⟨bytes, hbind⟩ := exists_bind_int h (hv.symm ▸ hfits)
    exact hnone bytes ((bind_text_iff_fits h).mpr ⟨v, hs, hfits, hbind⟩)
  · intro hout bytes hbind
    obtain ⟨v, hs, hfits, -⟩ := (bind_text_iff_fits h).mp hbind
    exact hout ⟨v, hs, hfits⟩

/-! ### Integers in text columns -/

/-- An integer binds to a text type as its digits. -/
theorem bind_int_of_isText (h : type.isText = true) :
    bind type (.int n) = .ok (some (Bytes.ofText (Number.intDigits n.toInt))) := by
  cases type <;> first | rfl | cases h

/-- **Numerals bind alike.** To an integer column (`SqlType.intWidth?`) an integer binds exactly if
it is in range (`Bytes.Fits`), as the bytes that spell it, and a text exactly if it spells an
integer in range with blanks around it (`Number.Spells`), as the bytes of that integer; all others
fail.  So an integer that is written into a text column binds as before when it is read back,
whatever becomes of it. -/
theorem numerals_bind_alike (h : type.intWidth? = some width) :
    (∀ (n : Int64) bytes, bind type (.int n) = .ok (some bytes) ↔
      Bytes.Fits width n.toInt ∧ bytes.length = width ∧ Bytes.toInt bytes = n.toInt) ∧
    (∀ n : Int64, (∃ e, bind type (.int n) = .error e) ↔ ¬ Bytes.Fits width n.toInt) ∧
    (∀ (s : String) bytes, bind type (.text s) = .ok (some bytes) ↔
      ∃ v : ℤ, Number.Spells s.toList v ∧ Bytes.Fits width v ∧
        bind type (.int (Int64.ofInt v)) = .ok (some bytes)) ∧
    (∀ s : String, (∃ e, bind type (.text s) = .error e) ↔
      ¬ ∃ v : ℤ, Number.Spells s.toList v ∧ Bytes.Fits width v) ∧
    ∀ (n : Int64) (textual : SqlType), textual.isText = true → ∃ bytes s,
      bind textual (.int n) = .ok (some bytes) ∧ String.fromUTF8? bytes.toByteArray = some s ∧
        bind type (.text s) = bind type (.int n) := by
  refine ⟨fun n bytes => bind_int_eq_ok_iff h, fun n => bind_int_error_iff h,
    fun s bytes => bind_text_iff_fits h, fun s => bind_text_error_iff h, ?_⟩
  intro n textual htextual
  -- the digits of an integer spell it, which is all that the other column reads
  refine ⟨_, _, bind_int_of_isText htextual, Bytes.fromUTF8?_ofText _, bind_text_of_spells h ?_⟩
  rw [String.toList_ofList]
  exact Number.spells_intDigits n.toInt

/-- The least integer of two bytes arrives from a text with zeros and blanks. -/
theorem numerals_bind_alike_least :
    SqlType.int2.intWidth? = some 2 ∧ SqlType.varchar.isText = true ∧
      bind .int2 (.text " -0032768\n") = .ok (some [0x80, 0x00]) ∧
      ∃ bytes s, bind .varchar (.int (-32769)) = .ok (some bytes) ∧
        String.fromUTF8? bytes.toByteArray = some s ∧
        bind .int2 (.text s) = bind .int2 (.int (-32769)) := by
  have hwidth : SqlType.int2.intWidth? = some 2 := rfl
  have halike := numerals_bind_alike hwidth
  have hspells : Number.Spells " -0032768\n".toList (-32768) :=
    ⟨"-0032768".toList, ⟨[' '], ['\n'], rfl, by simp [Text.isBlank], by simp [Text.isBlank]⟩,
      .minus "0032768".toList (by decide) (List.all_eq_true.mp (by decide))⟩
  have hbytes : bind .int2 (.int (Int64.ofInt (-32768))) = .ok (some [0x80, 0x00]) := rfl
  exact ⟨hwidth, rfl, (halike.2.2.1 _ _).mpr ⟨_, hspells, by decide, hbytes⟩,
    halike.2.2.2.2 _ _ rfl⟩

end Term

end Listing
