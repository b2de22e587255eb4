import Listing.Number.Layout
import Listing.Number.Reader
import Listing.Proofs.Outcome
import Listing.Text.Blank
import Mathlib.Data.List.TakeWhile

namespace Listing

/-!
# Numerals

The texts that spell an integer, said without the reader, and the blanks that may stand around them.

* `Text.Within` — a text is another one with blanks around it; `Text.within_trim` and
  `Text.trim_of_within` tie this to trimming;
* `Number.Numeral` — an optional sign, at least one digit, and the integer that they spell;
* `Number.readInt64_eq_ok_iff` — the reader takes exactly the numerals of 64-bit integers;
* `Number.Spells`, `Number.readInt64_trim_eq_ok_iff` — the same with blanks around the numeral;
* `Number.numeral_intDigits` — the written digits of an integer are a numeral of it.
-/

/-! ### Blanks around a text -/

namespace Text

variable {text inner : List Char}

/-- The text is `inner` with blanks before and after it. -/
def Within (inner text : List Char) : Prop :=
  ∃ before after, text = before ++ inner ++ after ∧ (∀ c ∈ before, isBlank c = true) ∧
    ∀ c ∈ after, isBlank c = true

/-- Blanks before a text are dropped. -/
theorem trimStart_append {before : List Char} (h : ∀ c ∈ before, isBlank c = true) :
    trimStart (before ++ text) = trimStart text := by
  induction before with
  | nil => rfl
  | cons c rest ih =>
    obtain ⟨hc, hrest⟩ := List.forall_mem_cons.mp h
    rw [List.cons_append, trimStart, List.dropWhile_cons_of_pos hc]
    exact ih hrest

/-- A text that does not begin with a blank stays as it is. -/
theorem trimStart_of_head? (h : ∀ c, text.head? = some c → isBlank c = false) :
    trimStart text = text := by
  cases text with
  | nil => rfl
  | cons c rest =>
    have hc : isBlank c = false := h c rfl
    exact List.dropWhile_cons_of_neg (by simp [hc])

/-- Trimming the end is trimming the start of the reverse. -/
theorem trimEnd_eq (text : List Char) : trimEnd text = (trimStart text.reverse).reverse := rfl

/-- What has no blanks at its ends is what is left of it with blanks around it. -/
theorem trim_of_within (h : Within inner text)
    (hhead : ∀ c, inner.head? = some c → isBlank c = false)
    (hlast : ∀ c, inner.getLast? = some c → isBlank c = false) : trim text = inner := by
  obtain ⟨before, after, rfl, hbefore, hafter⟩ := h
  have hend : trimEnd (inner ++ after) = inner := by
    have hreversed : trimStart inner.reverse = inner.reverse :=
      trimStart_of_head? (by simpa using hlast)
    rw [trimEnd_eq, List.reverse_append, trimStart_append (by simpa using hafter), hreversed,
      List.reverse_reverse]
  rw [trim, List.append_assoc, trimStart_append hbefore]
  -- with nothing inside, all of the text is blank
  cases inner with
  | nil =>
    have hblank : trimStart ([] ++ after) = [] := by
      rw [List.nil_append, ← List.append_nil after, trimStart_append hafter]
      rfl
    rw [hblank]
    rfl
  | cons c rest => rw [trimStart_of_head? (by simpa using hhead), hend]

/-- A text is what trimming leaves of it with blanks around that. -/
theorem within_trim (text : List Char) : Within (trim text) text := by
  refine ⟨text.takeWhile isBlank, ((trimStart text).reverse.takeWhile isBlank).reverse, ?_, ?_, ?_⟩
  · have hend : trimStart text =
        trim text ++ ((trimStart text).reverse.takeWhile isBlank).reverse := by
      rw [trim, trimEnd, ← List.reverse_append, List.takeWhile_append_dropWhile,
        List.reverse_reverse]
    rw [List.append_assoc, ← hend, trimStart, List.takeWhile_append_dropWhile]
  · exact fun c hc => List.mem_takeWhile_imp hc
  · intro c hc
    exact List.mem_takeWhile_imp (List.mem_reverse.mp hc)

end Text

namespace Number

variable {text digits : List Char} {limit acc n : Nat} {overflow : IntFault}

/-- A numeral with the integer that it spells: digits, or digits after a sign. -/
inductive Numeral : List Char → ℤ → Prop
  | plain (digits : List Char) (some_digit : digits ≠ []) (all_digits : ∀ c ∈ digits, c.isDigit) :
    Numeral digits (digitsToNat digits : ℕ)
  | plus (digits : List Char) (some_digit : digits ≠ []) (all_digits : ∀ c ∈ digits, c.isDigit) :
    Numeral ('+' :: digits) (digitsToNat digits : ℕ)
  | minus (digits : List Char) (some_digit : digits ≠ []) (all_digits : ∀ c ∈ digits, c.isDigit) :
    Numeral ('-' :: digits) (-(digitsToNat digits : ℕ))

/-! ### Reading -/

/-- More digits never spell less. -/
theorem le_ofDigitChars (acc : Nat) (digits : List Char) :
    acc ≤ Nat.ofDigitChars 10 digits acc := by
  induction digits generalizing acc with
  | nil => exact Nat.le_refl acc
  | cons c rest ih =>
    rw [Nat.ofDigitChars_cons]
    exact Nat.le_trans (by omega) (ih _)

/-- A digit has its distance from zero as value. -/
theorem digitValue?_of_isDigit {c : Char} (h : c.isDigit = true) :
    digitValue? c = some (c.toNat - '0'.toNat) := if_pos h

/-- The reader of digits goes on while the number read so far, which only grows, is in range. -/
theorem readDigits_eq_ok_iff (hacc : acc ≤ limit) :
    readDigits limit overflow acc text = .ok n ↔
      (∀ c ∈ text, c.isDigit = true) ∧ Nat.ofDigitChars 10 text acc = n ∧ n ≤ limit := by
  induction text generalizing acc with
  | nil => simp [readDigits]; omega
  | cons c rest ih =>
    rw [readDigits, List.forall_mem_cons, Nat.ofDigitChars_cons]
    by_cases hc : c.isDigit = true
    · rw [digitValue?_of_isDigit hc]
      simp only
      split
      · rename_i hnext
        rw [ih hnext, and_iff_right hc]
      · rename_i hnext
        -- what has passed the limit stays above it
        have hgrows := le_ofDigitChars (10 * acc + (c.toNat - '0'.toNat)) rest
        refine ⟨nofun, fun h => ?_⟩
        omega
    · simp [digitValue?, hc]

/-- A magnitude is read from digits, one at least, that spell a number within the limit. -/
theorem readMagnitude_eq_ok_iff :
    readMagnitude limit overflow text = .ok n ↔
      text ≠ [] ∧ (∀ c ∈ text, c.isDigit = true) ∧ digitsToNat text = n ∧ n ≤ limit := by
  cases text with
  | nil => simp [readMagnitude]
  | cons c rest => simp [readMagnitude, readDigits_eq_ok_iff, digitsToNat]

/-- An integer is made of a number exactly if the number is read. -/
theorem map_cast_eq_ok_iff {x : Except IntFault Nat} {f : ℤ → Int64} {m : Int64} :
    (x >>= fun n => pure (n : ℤ)).map f = .ok m ↔ ∃ n : Nat, x = .ok n ∧ f n = m := by
  cases x with
  | error fault => exact ⟨nofun, fun ⟨_, h, _⟩ => nomatch h⟩
  | ok n => exact ⟨fun h => ⟨n, rfl, Except.ok.inj h⟩, fun ⟨_, rfl, h⟩ => congrArg Except.ok h⟩

/-- A digit is no sign, so a text that starts with one is read as it is. -/
theorem readInt64_of_isDigit {c : Char} {rest : List Char} (hc : c.isDigit = true) :
    readInt64 (c :: rest) =
      (readMagnitude (2 ^ 63 - 1) .tooLarge (c :: rest) >>= fun n => pure (n : ℤ)).map
        Int64.ofInt := by
  have hminus : c ≠ '-' := by rintro rfl; cases hc
  have hplus : c ≠ '+' := by rintro rfl; cases hc
  unfold readInt64
  split
  · rename_i h; cases h
  · rename_i h; cases h; exact absurd rfl hminus
  · rename_i h; cases h; exact absurd rfl hplus
  · rename_i h; cases h; rfl

/-- A 64-bit integer is read from exactly the numerals of it. -/
theorem readInt64_eq_ok_iff {m : Int64} : readInt64 text = .ok m ↔ Numeral text m.toInt := by
  constructor
  · intro h
    unfold readInt64 at h
    split at h
    case h_1 => cases h
    -- each sign has the limit of its side of 64 bits, so the integer that is read is kept
    all_goals
      obtain ⟨n, hread, rfl⟩ := map_cast_eq_ok_iff.mp h
      obtain ⟨hne, hdigits, rfl, hlimit⟩ := readMagnitude_eq_ok_iff.mp hread
      rw [Int64.toInt_ofInt_of_le (by omega) (by omega)]
    · exact .minus _ hne hdigits
    · exact .plus _ hne hdigits
    · exact .plain _ hne hdigits
  · intro h
    have hlow := m.le_toInt
    have hhigh := m.toInt_lt
    -- the numeral is taken apart by the integer that it spells, whatever that comes from
    generalize hm : m.toInt = v at h hlow hhigh
    have hread {limit : Nat} {overflow : IntFault} {digits : List Char} (hne : digits ≠ [])
        (hdigits : ∀ c ∈ digits, c.isDigit = true) (hlimit : digitsToNat digits ≤ limit) :
        readMagnitude limit overflow digits = .ok (digitsToNat digits) :=
      readMagnitude_eq_ok_iff.mpr ⟨hne, hdigits, rfl, hlimit⟩
    cases h with
    | plain _ hne hdigits =>
      cases text with
      | nil => exact absurd rfl hne
      | cons c rest =>
        rw [readInt64_of_isDigit (hdigits c List.mem_cons_self)]
        exact map_cast_eq_ok_iff.mpr
          ⟨_, hread hne hdigits (by omega), by rw [← hm, Int64.ofInt_toInt]⟩
    | plus digits hne hdigits =>
      exact map_cast_eq_ok_iff.mpr
        ⟨_, hread hne hdigits (by omega), by rw [← hm, Int64.ofInt_toInt]⟩
    | minus digits hne hdigits =>
      exact map_cast_eq_ok_iff.mpr
        ⟨_, hread hne hdigits (by omega), by rw [← hm, Int64.ofInt_toInt]⟩

/-! ### Numerals in a text -/

/-- The text is a numeral with blanks around it. -/
def Spells (text : List Char) (v : ℤ) : Prop := ∃ inner, Text.Within inner text ∧ Numeral inner v

/-- No digit is a blank. -/
theorem isBlank_of_isDigit {c : Char} (h : c.isDigit = true) : Text.isBlank c = false := by
  have hdigit := Char.isDigit_iff_toNat.mp h
  have hzero : '0'.toNat = 48 := rfl
  have hnine : '9'.toNat = 57 := rfl
  simp [Text.isBlank]
  omega

/-- A numeral has a sign or a digit at its start and a digit at its end. -/
theorem Numeral.isBlank_ends {v : ℤ} (h : Numeral text v) :
    (∀ c, text.head? = some c → Text.isBlank c = false) ∧
      ∀ c, text.getLast? = some c → Text.isBlank c = false := by
  -- a sign stands before the digits only, so the end is a digit in all cases
  have hlast {digits : List Char} (hdigits : ∀ c ∈ digits, c.isDigit = true) (c : Char)
      (hc : digits.getLast? = some c) : Text.isBlank c = false :=
    isBlank_of_isDigit (hdigits c (List.mem_of_getLast? hc))
  cases h with
  | plain _ hne hdigits =>
    exact ⟨fun c hc => isBlank_of_isDigit (hdigits c (List.mem_of_head? hc)), hlast hdigits⟩
  | plus digits hne hdigits =>
    refine ⟨fun c hc => ?_, fun c hc => hlast hdigits c ?_⟩
    · cases hc
      decide
    · rwa [List.getLast?_cons_of_ne_nil hne] at hc
  | minus digits hne hdigits =>
    refine ⟨fun c hc => ?_, fun c hc => hlast hdigits c ?_⟩
    · cases hc
      decide
    · rwa [List.getLast?_cons_of_ne_nil hne] at hc

/-- A numeral has no blanks at its ends, so it is what trimming leaves. -/
theorem spells_iff {v : ℤ} : Spells text v ↔ Numeral (Text.trim text) v := by
  constructor
  · rintro ⟨inner, hwithin, h⟩
    rwa [Text.trim_of_within hwithin h.isBlank_ends.1 h.isBlank_ends.2]
  · exact fun h => ⟨_, Text.within_trim text, h⟩

/-- What is read between the blanks of a text is what it spells. -/
theorem readInt64_trim_eq_ok_iff {m : Int64} :
    readInt64 (Text.trim text) = .ok m ↔ Spells text m.toInt := by
  rw [readInt64_eq_ok_iff, spells_iff]

/-- The written digits of an integer are a numeral of it. -/
theorem numeral_intDigits (v : ℤ) : Numeral (intDigits v) v := by
  have hdigits (n : Nat) : ∀ c ∈ natDigits n, c.isDigit = true :=
    fun c hc => Nat.isDigit_of_mem_toDigits (by decide) (by decide) hc
  have hvalue (n : Nat) : digitsToNat (natDigits n) = n := Nat.ofDigitChars_ten_toDigits
  rw [intDigits]
  split
  · have hminus := Numeral.minus (natDigits v.natAbs) Nat.toDigits_ne_nil (hdigits _)
    have hv : -((v.natAbs : ℕ) : ℤ) = v := by omega
    rwa [hvalue, hv] at hminus
  · have hplain := Numeral.plain (natDigits v.natAbs) Nat.toDigits_ne_nil (hdigits _)
    have hv : ((v.natAbs : ℕ) : ℤ) = v := by omega
    rwa [hvalue, hv] at hplain

/-- An integer that is written is spelt. -/
theorem spells_intDigits (v : ℤ) : Spells (intDigits v) v :=
  ⟨_, ⟨[], [], by simp⟩, numeral_intDigits v⟩

end Number

end Listing
