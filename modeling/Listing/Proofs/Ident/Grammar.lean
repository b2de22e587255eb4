import Listing.Proofs.Ident
import Listing.Proofs.Sql.Lexeme
import Mathlib.Computability.Language
import Mathlib.Data.Set.Function

namespace Listing.Ident

/-!
# The grammar of identifiers

The texts that read as identifiers, as a language over characters that knows nothing of the reader.

* `Ident.grammar` — the language, of `Ident.bareNames` and `Ident.quotedNames`;
* `Ident.Proper` — what a bare or a quoted name consists of;
* `Ident.parse_eq_ok_iff` — a text reads as the proper identifier that is written as it;
* `Ident.mem_grammar_iff` — the texts of the language are those of the proper identifiers;
* `Ident.next_text`, `Ident.suffix_of_next` — a reader of SQL finds the end of an identifier where
  it was written, and never before;
* `Ident.parse_exact` — the reader takes the language and nothing else, and identifiers and their
  texts correspond one to one.
-/

open scoped Computability
open Sql (Lexeme)

/-! ### The language -/

/-- The words of one character of a class. -/
def single (p : Char → Prop) : Language Char := {w | ∃ c, p c ∧ w = [c]}

/-- The characters `[A-Za-z_]`. -/
def Starts (c : Char) : Prop := ('A' ≤ c ∧ c ≤ 'Z') ∨ ('a' ≤ c ∧ c ≤ 'z') ∨ c = '_'

/-- The characters `[A-Za-z0-9_$]`. -/
def GoesOn (c : Char) : Prop := Starts c ∨ ('0' ≤ c ∧ c ≤ '9') ∨ c = '$'

/-- The bare names `[A-Za-z_][A-Za-z0-9_$]*`. -/
def bareNames : Language Char := single Starts * (single GoesOn)∗

/-- The units of a quoted name: any character but the quote and NUL, or two quotes. -/
def units : Language Char := single (fun c => c ≠ '"' ∧ c ≠ '\x00') + {['"', '"']}

/-- The quoted names: one unit or more between two quotes. -/
def quotedNames : Language Char := {['"']} * (units * units∗) * {['"']}

/-- The texts of identifiers. -/
def grammar : Language Char := bareNames + quotedNames

/-- The words of the characters of a class, in any number. -/
theorem mem_kstar_single {p : Char → Prop} {w : List Char} :
    w ∈ (single p)∗ ↔ ∀ c ∈ w, p c := by
  rw [Language.mem_kstar]
  constructor
  · rintro ⟨words, rfl, hwords⟩ c hc
    obtain ⟨word, hword, hmem⟩ := List.mem_flatten.mp hc
    obtain ⟨d, hd, rfl⟩ := hwords word hword
    rwa [List.mem_singleton.mp hmem]
  · intro h
    refine ⟨w.map fun c => [c], ?_, ?_⟩
    · rw [← List.flatMap_def, List.flatMap_singleton']
    · intro word hword
      obtain ⟨c, hc, rfl⟩ := List.mem_map.mp hword
      exact ⟨c, h c hc, rfl⟩

/-! ### Bare names -/

/-- The first characters are the letters and the underscore. -/
theorem isStart_iff (c : Char) : isStart c = true ↔ Starts c := by
  have hupper : c.isUpper = true ↔ 'A' ≤ c ∧ c ≤ 'Z' := decide_eq_true_iff
  have hlower : c.isLower = true ↔ 'a' ≤ c ∧ c ≤ 'z' :=
    Bool.and_eq_true_iff.trans (and_congr decide_eq_true_iff decide_eq_true_iff)
  have halpha : c.isAlpha = true ↔ c.isUpper = true ∨ c.isLower = true := Bool.or_eq_true_iff
  rw [isStart, Bool.or_eq_true_iff, beq_iff_eq, halpha, hupper, hlower]
  exact or_comm.trans or_assoc

/-- Later characters may also be digits, and the dollar sign. -/
theorem isPart_iff (c : Char) : isPart c = true ↔ GoesOn c := by
  have hdigit : c.isDigit = true ↔ '0' ≤ c ∧ c ≤ '9' :=
    Bool.and_eq_true_iff.trans (and_congr decide_eq_true_iff decide_eq_true_iff)
  have halphanum : c.isAlphanum = true ↔ c.isAlpha = true ∨ c.isDigit = true := Bool.or_eq_true_iff
  have hstart : c = '_' ∨ c.isAlpha = true ↔ Starts c := by
    rw [← isStart_iff, isStart, Bool.or_eq_true_iff, beq_iff_eq]
  rw [isPart, Bool.or_eq_true_iff, Bool.or_eq_true_iff, beq_iff_eq, beq_iff_eq, halphanum, hdigit,
    GoesOn, ← hstart]
  exact or_or_or_comm.trans (or_congr_right or_comm)

/-- The grammar of bare names is that of bare words. -/
theorem mem_bareNames {w : List Char} : w ∈ bareNames ↔ IsBareWord w := by
  rw [bareNames, Language.mem_mul]
  constructor
  · rintro ⟨_, ⟨c, hc, rfl⟩, rest, hrest, rfl⟩
    exact ⟨c, rest, rfl, (isStart_iff c).mpr hc,
      fun d hd => (isPart_iff d).mpr (mem_kstar_single.mp hrest d hd)⟩
  · rintro ⟨c, rest, rfl, hc, hrest⟩
    exact ⟨[c], ⟨c, (isStart_iff c).mp hc, rfl⟩, rest,
      mem_kstar_single.mpr fun d hd => (isPart_iff d).mp (hrest d hd), rfl⟩

/-! ### Quoted names -/

/-- Quotes are doubled character by character. -/
theorem doubled_cons (c : Char) (name : List Char) :
    doubled (c :: name) = doubled [c] ++ doubled name := by
  by_cases hc : c = '"' <;> simp [doubled, hc]

/-- Doubling the quotes brings no other character in and leaves none out. -/
theorem mem_doubled {c : Char} {name : List Char} : c ∈ doubled name ↔ c ∈ name := by
  induction name with
  | nil => rfl
  | cons d name ih =>
    rw [doubled]
    split
    · rename_i hd
      simp [hd, ih]
    · simp [ih]

/-- A unit is a character as written in a body. -/
theorem mem_units {w : List Char} : w ∈ units ↔ ∃ c, c ≠ '\x00' ∧ w = doubled [c] := by
  rw [units, Language.mem_add]
  constructor
  · rintro (⟨c, ⟨hquote, hnul⟩, rfl⟩ | hpair)
    · exact ⟨c, hnul, by rw [doubled, if_neg hquote]; rfl⟩
    · exact ⟨'"', by decide, hpair⟩
  · rintro ⟨c, hnul, rfl⟩
    by_cases hquote : c = '"'
    · subst hquote
      exact .inr rfl
    · refine .inl ⟨c, ⟨hquote, hnul⟩, ?_⟩
      rw [doubled, if_neg hquote]
      rfl

/-- The units of a body are those of a name without NUL, written. -/
theorem mem_kstar_units {w : List Char} :
    w ∈ units∗ ↔ ∃ name, '\x00' ∉ name ∧ w = doubled name := by
  rw [Language.mem_kstar]
  constructor
  · rintro ⟨words, rfl, hwords⟩
    induction words with
    | nil => exact ⟨[], List.not_mem_nil, rfl⟩
    | cons word words ih =>
      -- each word is one character, doubled if it is a quote
      obtain ⟨c, hc, hword⟩ := mem_units.mp (hwords word List.mem_cons_self)
      obtain ⟨name, hname, hrest⟩ := ih fun v hv => hwords v (List.mem_cons_of_mem word hv)
      refine ⟨c :: name, ?_, ?_⟩
      · rintro (_ | ⟨_, hmem⟩)
        · exact hc rfl
        · exact hname hmem
      · rw [List.flatten_cons, hword, hrest, ← doubled_cons]
  · rintro ⟨name, hname, rfl⟩
    refine ⟨name.map fun c => doubled [c], ?_, ?_⟩
    · induction name with
      | nil => rfl
      | cons c name ih =>
        rw [doubled_cons, ih fun hmem => hname (List.mem_cons_of_mem c hmem), List.map_cons,
          List.flatten_cons]
    · intro word hword
      obtain ⟨c, hc, rfl⟩ := List.mem_map.mp hword
      exact mem_units.mpr ⟨c, fun hnul => hname (hnul ▸ hc), rfl⟩

/-- A quoted name is a name with its quotes doubled, between two quotes. -/
theorem mem_quotedNames {w : List Char} :
    w ∈ quotedNames ↔
      ∃ name, name ≠ [] ∧ '\x00' ∉ name ∧ w = '"' :: (doubled name ++ ['"']) := by
  simp only [quotedNames, Language.mem_mul]
  constructor
  · rintro ⟨_, ⟨_, rfl, _, ⟨unit, hunit, body, hbody, rfl⟩, rfl⟩, _, rfl, rfl⟩
    obtain ⟨c, hc, rfl⟩ := mem_units.mp hunit
    obtain ⟨name, hname, rfl⟩ := mem_kstar_units.mp hbody
    refine ⟨c :: name, List.cons_ne_nil c name, ?_, ?_⟩
    · rintro (_ | ⟨_, hmem⟩)
      · exact hc rfl
      · exact hname hmem
    · rw [doubled_cons c name]
      rfl
  · rintro ⟨name, hne, hnul, rfl⟩
    cases name with
    | nil => exact absurd rfl hne
    | cons c name =>
      -- the first unit shows that the name is not empty, the star is the rest
      rw [List.mem_cons, not_or] at hnul
      have hunit : doubled [c] ∈ units := mem_units.mpr ⟨c, Ne.symm hnul.1, rfl⟩
      have hbody : doubled name ∈ units∗ := mem_kstar_units.mpr ⟨name, hnul.2, rfl⟩
      refine ⟨'"' :: doubled (c :: name), ⟨['"'], rfl, _, ?_, rfl⟩, ['"'], rfl, rfl⟩
      exact ⟨doubled [c], hunit, doubled name, hbody, (doubled_cons c name).symm⟩

/-! ### The reader and the language -/

/-- What a bare or a quoted name consists of. -/
def Proper : Ident → Prop
  | bare name => IsBareWord name.toList
  | quoted name => name.toList ≠ [] ∧ '\x00' ∉ name.toList

/-- A text with a null character is no identifier. -/
theorem not_mem_of_parse {text : String} {i : Ident} (h : parse text = .ok i) :
    '\x00' ∉ text.toList := by
  unfold parse at h
  split at h
  · cases h
  · rename_i start rest htext
    split at h
    · cases h
    · rwa [htext]

/-- A bare word is read as a bare name. -/
theorem parse_bare {name : String} (h : IsBareWord name.toList) :
    parse name = .ok (.bare name) := by
  obtain ⟨c, rest, hname, hstart, hrest⟩ := h
  -- neither NUL nor a quote starts or goes on a bare word
  have hnul : '\x00' ∉ c :: rest := by
    rintro (_ | ⟨_, hmem⟩)
    · exact absurd hstart (by decide)
    · exact absurd (hrest _ hmem) (by decide)
  have hquote : c ≠ '"' := by
    rintro rfl
    exact absurd hstart (by decide)
  have hfind : rest.find? (fun c => !isPart c) = none := by
    simpa [List.find?_eq_none] using hrest
  unfold parse
  rw [hname]
  simp only [if_neg hnul, if_neg hquote, parseBare, if_pos hstart, hfind]

/-- A quoted name is read as the name. -/
theorem parse_quoted {name : String} (hne : name.toList ≠ []) (hnul : '\x00' ∉ name.toList) :
    parse (quoted name).text = .ok (.quoted name) := by
  have hbody : body (doubled name.toList ++ ['"']) = .ok (name.toList, []) :=
    body_doubled name.toList [] (by simp)
  have hfree : '\x00' ∉ '"' :: (doubled name.toList ++ ['"']) := by
    simpa [mem_doubled] using hnul
  unfold parse
  rw [Ident.text, String.toList_ofList]
  simp only [if_neg hfree, if_true, parseQuoted, hbody, bind, Except.bind]
  simp [hne, pure, Except.pure]

/-- A text reads as the proper identifier that is written as it. -/
theorem parse_eq_ok_iff {text : String} {i : Ident} :
    parse text = .ok i ↔ i.Proper ∧ i.text = text := by
  constructor
  · intro h
    refine ⟨?_, text_of_parse h⟩
    have hnul := not_mem_of_parse h
    rcases cases_of_parse h with ⟨rfl, hword⟩ | ⟨name, rfl, hne⟩
    · exact hword
    · refine ⟨hne, ?_⟩
      rw [← text_of_parse h, Ident.text, String.toList_ofList] at hnul
      simpa [mem_doubled] using hnul
  · rintro ⟨hproper, rfl⟩
    cases i with
    | bare name => exact parse_bare hproper
    | quoted name => exact parse_quoted hproper.1 hproper.2

/-- Exactly the proper identifiers are read from some text. -/
theorem accepted_iff {i : Ident} : i.Accepted ↔ i.Proper := by
  constructor
  · rintro ⟨text, h⟩
    exact (parse_eq_ok_iff.mp h).1
  · intro h
    exact ⟨i.text, parse_eq_ok_iff.mpr ⟨h, rfl⟩⟩

/-- The texts of the language are those of the proper identifiers. -/
theorem mem_grammar_iff {text : String} :
    text.toList ∈ grammar ↔ ∃ i : Ident, i.Proper ∧ i.text = text := by
  rw [grammar, Language.mem_add, mem_bareNames, mem_quotedNames]
  constructor
  · rintro (hword | ⟨name, hne, hnul, htext⟩)
    · exact ⟨.bare text, hword, rfl⟩
    · refine ⟨.quoted (String.ofList name), ?_, ?_⟩
      · simpa [Proper] using And.intro hne hnul
      · rw [← String.toList_inj, htext, Ident.text, String.toList_ofList, String.toList_ofList]
  · rintro ⟨i, hi, rfl⟩
    cases i with
    | bare name => exact .inl hi
    | quoted name => exact .inr ⟨name.toList, hi.1, hi.2, String.toList_ofList⟩

/-! ### The end of an identifier in a longer text -/

/-- What a reader of SQL takes the identifier for. -/
def lexeme : Ident → Lexeme
  | bare name => .word name
  | quoted name => .quoted name

/-- Nothing at the start of the text could go on the identifier before it. -/
def EndsBefore (rest : List Char) : Ident → Prop
  | bare _ => ∀ c ∈ rest.head?, isPart c = false
  | quoted _ => rest.head? ≠ some '"'

/-- What stands after a quoted body is the end of the text. -/
theorem suffix_of_quotedBody {text name after : List Char}
    (h : Sql.quotedBody text = some (name, after)) : after <:+ text := by
  fun_induction Sql.quotedBody text generalizing name with
  | case1 => cases h
  | case2 tail ih =>
    obtain ⟨read, hread, heq⟩ := Option.map_eq_some_iff.mp h
    cases heq
    exact (ih hread).trans ((List.suffix_cons '"' tail).trans (List.suffix_cons '"' ('"' :: tail)))
  | case3 tail _ =>
    cases h
    exact List.suffix_cons _ _
  | case4 c tail _ _ ih =>
    obtain ⟨read, hread, heq⟩ := Option.map_eq_some_iff.mp h
    cases heq
    exact (ih hread).trans (List.suffix_cons c tail)

/-- A body that goes on with its closing quote ends there or later. -/
theorem suffix_of_closed {name rest read after : List Char}
    (h : Sql.quotedBody (doubled name ++ '"' :: rest) = some (read, after)) : after <:+ rest := by
  rw [Sql.quotedBody_append] at h
  obtain ⟨⟨tail, _⟩, hclose, heq⟩ := Option.map_eq_some_iff.mp h
  cases heq
  rcases List.suffix_cons_iff.mp (suffix_of_quotedBody hclose) with hsame | hsuffix
  · -- the closing quote itself is taken off
    have hlength := Sql.length_quotedBody hclose
    rw [hsame] at hlength
    exact absurd hlength (lt_irrefl _)
  · exact hsuffix

/-- A reader of SQL finds the end of an identifier where it was written. -/
theorem next_text {i : Ident} (hi : i.Proper) {rest : List Char} (hrest : i.EndsBefore rest) :
    Sql.next (i.text.toList ++ rest) = some (i.lexeme, rest) := by
  cases i with
  | bare name => exact Sql.next_word hi hrest
  | quoted name => exact Sql.next_quoted hi.1 hrest

/-- Whatever follows an identifier, a reader of SQL takes it off as a whole. -/
theorem suffix_of_next {i : Ident} (hi : i.Proper) {rest after : List Char} {l : Lexeme}
    (h : Sql.next (i.text.toList ++ rest) = some (l, after)) : after <:+ rest := by
  cases i with
  | bare name =>
    obtain ⟨c, cs, hname, hstart, hpart⟩ := hi
    rw [Ident.text, hname, List.cons_append, Sql.next, if_pos hstart,
      List.dropWhile_append_of_pos hpart] at h
    cases h
    exact List.dropWhile_suffix isPart
  | quoted name =>
    rw [Ident.text, String.toList_ofList, List.cons_append, List.append_assoc,
      List.singleton_append, Sql.next, if_neg (by decide), if_neg (by decide),
      if_neg (by decide), if_pos rfl, Sql.readQuoted] at h
    split at h
    · rename_i hbody
      split at h
      · cases h
      · cases h
        exact suffix_of_closed hbody
    · cases h

/-- Identifiers and their texts correspond one to one. -/
theorem text_bijOn :
    Set.BijOn text {i | i.Accepted} {t | t.toList ∈ grammar} := by
  refine ⟨?_, ?_, ?_⟩
  · intro i hi
    exact mem_grammar_iff.mpr ⟨i, accepted_iff.mp hi, rfl⟩
  · intro i hi j hj htext
    have hread : parse i.text = .ok i := parse_eq_ok_iff.mpr ⟨accepted_iff.mp hi, rfl⟩
    rw [htext, parse_eq_ok_iff.mpr ⟨accepted_iff.mp hj, rfl⟩] at hread
    exact (Except.ok.inj hread).symm
  · intro text htext
    obtain ⟨i, hi, rfl⟩ := mem_grammar_iff.mp htext
    exact ⟨i, accepted_iff.mpr hi, rfl⟩

/-- **Identifiers are read exactly.** `Ident.parse` reads the texts of the `grammar` and no others,
an identifier is written as the text that it was read from and read back as it was, and `Ident.text`
makes the two correspond one to one.  In a longer text `Sql.next` ends the identifier where it was
written: never after that, and not before if no character follows that could go on it
(`Ident.EndsBefore`). -/
theorem parse_exact :
    (∀ text, (∃ i, parse text = .ok i) ↔ text.toList ∈ grammar) ∧
      (∀ text i, parse text = .ok i → i.text = text) ∧
      (∀ i : Ident, i.Accepted → parse i.text = .ok i) ∧
      Set.BijOn text {i | i.Accepted} {t | t.toList ∈ grammar} ∧
      ∀ i : Ident, i.Accepted → ∀ rest,
        (i.EndsBefore rest → Sql.next (i.text.toList ++ rest) = some (i.lexeme, rest)) ∧
        ∀ l after, Sql.next (i.text.toList ++ rest) = some (l, after) → after <:+ rest := by
  refine ⟨?_, fun text i => text_of_parse, ?_, text_bijOn, ?_⟩
  · intro text
    simp only [mem_grammar_iff, parse_eq_ok_iff]
  · intro i hi
    exact parse_eq_ok_iff.mpr ⟨accepted_iff.mp hi, rfl⟩
  · intro i hi rest
    have hproper := accepted_iff.mp hi
    exact ⟨next_text hproper, fun l after => suffix_of_next hproper⟩

/-- A name of quotes alone, before a comma: five quotes are no text of it, six are. -/
theorem parse_exact_quotes :
    parse "\"\"\"\"\"" = .error .unclosed ∧
      "\"\"\"\"\"".toList ∉ grammar ∧
      parse "\"\"\"\"\"\"" = .ok (.quoted "\"\"") ∧
      "\"\"\"\"\"\"".toList ∈ grammar ∧
      parse (quoted "\"\"").text = .ok (.quoted "\"\"") ∧
      Sql.next ("\"\"\"\"\"\", x".toList) = some (.quoted "\"\"", ", x".toList) := by
  obtain ⟨hread, -, hagain, -, hends⟩ := parse_exact
  have hfive : parse "\"\"\"\"\"" = .error .unclosed := by decide +kernel
  have hsix : parse "\"\"\"\"\"\"" = .ok (.quoted "\"\"") := by decide +kernel
  refine ⟨hfive, ?_, hsix, (hread _).mp ⟨_, hsix⟩, hagain _ ⟨_, hsix⟩, ?_⟩
  · intro hmem
    obtain ⟨i, hi⟩ := (hread _).mpr hmem
    rw [hfive] at hi
    cases hi
  · have hcomma : ", x".toList.head? ≠ some '"' := by decide
    exact (hends (.quoted "\"\"") ⟨_, hsix⟩ ", x".toList).1 hcomma

end Listing.Ident
