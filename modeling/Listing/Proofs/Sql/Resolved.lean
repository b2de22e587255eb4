import Listing.Sql.Condition

namespace Listing

/-!
# Resolved operands

An operand that a query holds has been resolved from a field: each of its columns stands behind the
alias of a row source and is named by an identifier that was read.

* `Ident.Accepted` — identifiers that some text reads as, with `Ident.cases_of_parse`, what they are
  made of;
* `Sql.Alias.Assigned` — aliases that stand for a table at some position;
* `Sql.Operand.Resolved`, `Sql.Condition.Resolved` — operands and conditions made of these.
-/

namespace Ident

/-- Some text reads as the identifier. -/
def Accepted (i : Ident) : Prop := ∃ text, parse text = .ok i

/-- The characters of a bare word: one that starts a word, then ones that go on. -/
def IsBareWord (cs : List Char) : Prop :=
  ∃ c rest, cs = c :: rest ∧ isStart c = true ∧ ∀ x ∈ rest, isPart x = true

/-- A character that stands in no word does not stand in a bare one. -/
theorem not_mem_of_isBareWord {word : List Char} (h : IsBareWord word) {c : Char}
    (hstart : isStart c = false) (hpart : isPart c = false) : c ∉ word := by
  obtain ⟨first, rest, rfl, hfirst, hrest⟩ := h
  intro hmem
  rcases List.mem_cons.mp hmem with rfl | hmem
  · rw [hstart] at hfirst
    cases hfirst
  · have hc := hrest c hmem
    rw [hpart] at hc
    cases hc

/-- A text reads as a bare name if it is a bare word, and else as a quoted name with a body. -/
theorem cases_of_parse {text : String} {i : Ident} (h : parse text = .ok i) :
    (i = .bare text ∧ IsBareWord text.toList) ∨ ∃ name, i = .quoted name ∧ name.toList ≠ [] := by
  unfold parse at h
  cases ht : text.toList with
  | nil => simp [ht] at h
  | cons start rest =>
    simp only [ht] at h
    split at h
    · cases h
    · split at h
      · -- a text that opens with a quote
        right
        unfold parseQuoted at h
        cases hb : body rest with
        | error fault => simp [hb, bind, Except.bind] at h
        | ok read =>
          simp only [hb, bind, Except.bind] at h
          split at h
          · cases h
          · split at h
            · cases h
            · rename_i hname
              cases h
              exact ⟨_, rfl, by simpa using hname⟩
      · left
        unfold parseBare at h
        split at h
        · rename_i hstart
          cases hf : rest.find? fun c => !isPart c with
          | some c => simp [hf] at h
          | none =>
            simp only [hf, Except.ok.injEq] at h
            refine ⟨h.symm, start, rest, rfl, hstart, ?_⟩
            intro x hx
            have hx' := List.find?_eq_none.mp hf x hx
            simpa using hx'
        · cases h

/-- A bare name that was read is a bare word. -/
theorem isBareWord_of_accepted {name : String} (h : Accepted (.bare name)) :
    IsBareWord name.toList := by
  obtain ⟨text, h⟩ := h
  rcases cases_of_parse h with ⟨hi, hw⟩ | ⟨_, hi, _⟩
  · cases hi
    exact hw
  · cases hi

/-- A quoted name that was read is not empty. -/
theorem ne_nil_of_accepted {name : String} (h : Accepted (.quoted name)) : name.toList ≠ [] := by
  obtain ⟨text, h⟩ := h
  rcases cases_of_parse h with ⟨hi, _⟩ | ⟨_, hi, hn⟩
  · cases hi
  · cases hi
    exact hn

end Ident

namespace Sql

/-- The alias stands for some table at some position. -/
def Alias.Assigned (a : Alias) : Prop := ∃ table index, a = .ofTable table index

/-- The lower case of an upper-case letter is a letter. -/
theorem isLower_toLower {c : Char} (h : c.val ≥ 'A'.val ∧ c.val ≤ 'Z'.val) :
    c.toLower.isLower = true := by
  have hlow : 65 ≤ c.val.toNat := UInt32.le_iff_toNat_le.mp h.1
  have hhigh : c.val.toNat ≤ 90 := UInt32.le_iff_toNat_le.mp h.2
  -- lowering adds 32, which stays far below the bound of the type
  have hval : c.toLower.val.toNat = c.val.toNat + 32 := by
    have hlower : c.toLower.val = c.val + 32 := congrArg Char.val (dif_pos h)
    rw [hlower, UInt32.toNat_add]
    show (c.val.toNat + 32) % 4294967296 = _
    omega
  have hfirst : 'a'.val ≤ c.toLower.val := by
    rw [UInt32.le_iff_toNat_le, hval]
    show 97 ≤ _
    omega
  have hlast : c.toLower.val ≤ 'z'.val := by
    rw [UInt32.le_iff_toNat_le, hval]
    show _ ≤ 122
    omega
  exact Bool.and_eq_true_iff.mpr ⟨decide_eq_true hfirst, decide_eq_true hlast⟩

/-- A letter stays a letter in lower case. -/
theorem isAlpha_toLower {c : Char} (h : c.isAlpha = true) : c.toLower.isAlpha = true := by
  by_cases hc : c.val ≥ 'A'.val ∧ c.val ≤ 'Z'.val
  · exact Bool.or_eq_true_iff.mpr (.inr (isLower_toLower hc))
  · have hsame : c.toLower = c := dif_neg hc
    rwa [hsame]

/-- An alias starts with a letter. -/
theorem Alias.isStart_of_assigned {a : Alias} (h : a.Assigned) :
    Ident.isStart a.initial = true := by
  obtain ⟨table, index, rfl⟩ := h
  unfold ofTable
  cases hf : table.toList.find? Char.isAlpha with
  | none => rfl
  | some c =>
    have hc : c.isAlpha = true := by simpa using List.find?_some hf
    show (c.toLower == '_' || c.toLower.isAlpha) = true
    rw [isAlpha_toLower hc, Bool.or_true]

/-- The columns of the operand have aliases of tables and accepted names. -/
def Operand.Resolved : Operand → Prop
  | column source name => source.Assigned ∧ name.Accepted
  | yearOf x | monthOf x | lower x | upper x => x.Resolved
  | concat x y | coalesce x y => x.Resolved ∧ y.Resolved

namespace Condition

mutual

/-- The operands of a condition, in order. -/
def operands : Condition → List Operand
  | all parts => operandsOf parts
  | any parts => operandsOf parts
  | not part => operands part
  | compare lhs _ _ => [lhs]
  | nullness lhs _ => [lhs]
  | inList lhs _ _ => [lhs]
  | constant _ => []

/-- The operands of several conditions, in order. -/
def operandsOf : List Condition → List Operand
  | [] => []
  | part :: rest => operands part ++ operandsOf rest

end

/-- Every operand of the condition is resolved. -/
def Resolved (c : Condition) : Prop := ∀ x ∈ c.operands, x.Resolved

/-- The operands of a list are those of its parts. -/
theorem mem_operandsOf {x : Operand} {parts : List Condition} :
    x ∈ operandsOf parts ↔ ∃ part ∈ parts, x ∈ part.operands := by
  induction parts with
  | nil => simp [operandsOf]
  | cons part rest ih => simp [operandsOf, ih]

/-- A conjunction is resolved if its parts are. -/
@[simp] theorem resolved_all {parts : List Condition} :
    (all parts).Resolved ↔ ∀ part ∈ parts, part.Resolved := by
  simp only [Resolved, operands, mem_operandsOf]
  constructor
  · intro h part hpart x hx
    exact h x ⟨part, hpart, hx⟩
  · rintro h x ⟨part, hpart, hx⟩
    exact h part hpart x hx

/-- So is a disjunction. -/
@[simp] theorem resolved_any {parts : List Condition} :
    (any parts).Resolved ↔ ∀ part ∈ parts, part.Resolved := resolved_all

/-- So is a negation, if what it negates is. -/
@[simp] theorem resolved_not {part : Condition} : (not part).Resolved ↔ part.Resolved := Iff.rfl

end Condition

end Sql

end Listing
