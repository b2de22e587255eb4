import Listing.Proofs.Sql.Resolved

namespace Listing.Sql

/-!
# Lexemes

A text of SQL as the words, names, numbers, parameters and signs that a reader of SQL takes it apart
into.  It does not know where the writer put one token after another: a word, a number or a
parameter goes on as far as its characters allow.

* `Lexeme` — the least part of a text that has a meaning;
* `lex` — the lexemes of a text;
* `Token.lexemes`, `lexemes` — the lexemes that tokens are meant to be read as;
* `lex_text` — and are read as: no token of a condition runs into the one after it.
-/

/-- The least part of a text that has a meaning. -/
inductive Lexeme
  | word (text : String)
  | quoted (name : String)
  | number (n : Nat)
  | parameter (n : Nat)
  | sign (text : String)
  deriving DecidableEq, Repr

/-! ### Reading -/

/-- The body of a quoted name, in which a quote is written twice, and the text after it. -/
def quotedBody : List Char → Option (List Char × List Char)
  | [] => none
  | '"' :: '"' :: rest => (quotedBody rest).map fun read => ('"' :: read.1, read.2)
  | '"' :: rest => some ([], rest)
  | c :: rest => (quotedBody rest).map fun read => (c :: read.1, read.2)

/-- The number that some digits spell. -/
def numberOf (digits : List Char) : Nat := Nat.ofDigitChars 10 digits 0

/-- A sign; of two signs that start alike the longer one. -/
def readSign : List Char → Option (Lexeme × List Char)
  | '>' :: '=' :: rest => some (.sign ">=", rest)
  | '<' :: '=' :: rest => some (.sign "<=", rest)
  | ':' :: ':' :: rest => some (.sign "::", rest)
  | '>' :: rest => some (.sign ">", rest)
  | '<' :: rest => some (.sign "<", rest)
  | '=' :: rest => some (.sign "=", rest)
  | '(' :: rest => some (.sign "(", rest)
  | ')' :: rest => some (.sign ")", rest)
  | ',' :: rest => some (.sign ",", rest)
  | '.' :: rest => some (.sign ".", rest)
  | '*' :: rest => some (.sign "*", rest)
  | _ => none

/-- A quoted name after its opening quote; it may not be empty. -/
def readQuoted (text : List Char) : Option (Lexeme × List Char) :=
  match quotedBody text with
  | some (name, rest) => if name.isEmpty then none else some (.quoted (String.ofList name), rest)
  | none => none

/-- A parameter after its dollar sign; it has at least one digit. -/
def readParameter (text : List Char) : Option (Lexeme × List Char) :=
  let digits := text.takeWhile Char.isDigit
  if digits.isEmpty then none
  else some (.parameter (numberOf digits), text.dropWhile Char.isDigit)

/-- The lexeme at the start of a text, and the text after it. -/
def next : List Char → Option (Lexeme × List Char)
  | [] => none
  | c :: rest =>
    if Ident.isStart c then
      some (.word (String.ofList (c :: rest.takeWhile Ident.isPart)), rest.dropWhile Ident.isPart)
    else if c.isDigit then
      some (.number (numberOf (c :: rest.takeWhile Char.isDigit)), rest.dropWhile Char.isDigit)
    else if c = '$' then readParameter rest
    else if c = '"' then readQuoted rest
    else readSign (c :: rest)

/-- Dropping characters leaves no more of them. -/
theorem length_dropWhile_le {α : Type} (p : α → Bool) (xs : List α) :
    (xs.dropWhile p).length ≤ xs.length := (List.dropWhile_sublist p).length_le

/-- The closing quote at least is gone after a quoted name. -/
theorem length_quotedBody {text name rest : List Char} (h : quotedBody text = some (name, rest)) :
    rest.length < text.length := by
  -- along the reading: a doubled quote, the closing one, or any other character
  fun_induction quotedBody text generalizing name with
  | case1 => cases h
  | case2 tail ih =>
    obtain ⟨read, hread, heq⟩ := Option.map_eq_some_iff.mp h
    cases heq
    exact Nat.lt_succ_of_lt (Nat.lt_succ_of_lt (ih hread))
  | case3 tail _ =>
    cases h
    exact Nat.lt_succ_self _
  | case4 c tail _ _ ih =>
    obtain ⟨read, hread, heq⟩ := Option.map_eq_some_iff.mp h
    cases heq
    exact Nat.lt_succ_of_lt (ih hread)

/-- A sign has a character at least. -/
theorem length_readSign {text rest : List Char} {l : Lexeme} (h : readSign text = some (l, rest)) :
    rest.length < text.length := by
  unfold readSign at h
  split at h <;> cases h <;> simp only [List.length_cons] <;> omega

/-- After a quoted name the text is shorter. -/
theorem length_readQuoted {text rest : List Char} {l : Lexeme}
    (h : readQuoted text = some (l, rest)) : rest.length < text.length := by
  unfold readQuoted at h
  split at h
  · rename_i name after hq
    split at h
    · cases h
    · cases h
      exact length_quotedBody hq
  · cases h

/-- After a parameter the text is no longer; its dollar sign has been read before. -/
theorem length_readParameter {text rest : List Char} {l : Lexeme}
    (h : readParameter text = some (l, rest)) : rest.length ≤ text.length := by
  simp only [readParameter] at h
  split at h
  · cases h
  · cases h
    exact length_dropWhile_le Char.isDigit text

/-- Reading a lexeme takes something off the text. -/
theorem length_next {text rest : List Char} {l : Lexeme} (h : next text = some (l, rest)) :
    rest.length < text.length := by
  cases text with
  | nil => simp [next] at h
  | cons c tail =>
    -- the first character tells what is read
    rw [next] at h
    split at h
    · cases h
      exact Nat.lt_succ_of_le (length_dropWhile_le Ident.isPart tail)
    split at h
    · cases h
      exact Nat.lt_succ_of_le (length_dropWhile_le Char.isDigit tail)
    split at h
    · exact Nat.lt_succ_of_le (length_readParameter h)
    split at h
    · exact Nat.lt_succ_of_lt (length_readQuoted h)
    · exact length_readSign h

/-- The lexemes of a text, with blanks between some of them; none if there is anything else. -/
def lex (text : List Char) : Option (List Lexeme) :=
  match text with
  | [] => some []
  | ' ' :: rest => lex rest
  | c :: tail =>
    match _h : next (c :: tail) with
    | some (l, rest) => (lex rest).map (l :: ·)
    | none => none
termination_by text.length
decreasing_by
  · simp
  · exact length_next _h

/-! ### Reading what was written -/

/-- The characters that no word, number or parameter goes on with. -/
def endsLexeme (c : Char) : Bool :=
  c == ' ' || c == '(' || c == ')' || c == ',' || c == '.' || c == ':'

/-- Nothing at the start of the text could go on a lexeme before it. -/
def Stopped (rest : List Char) : Prop := ∀ c ∈ rest.head?, endsLexeme c = true

/-- A text ends where nothing follows. -/
theorem stopped_nil : Stopped [] := by
  intro c hc
  cases hc

/-- It also ends before a character that goes on with none. -/
theorem stopped_cons {c : Char} (h : endsLexeme c = true) (rest : List Char) :
    Stopped (c :: rest) := by
  intro d hd
  cases hd
  exact h

/-- A class is taken up to the first character outside it and no further. -/
theorem span_append {p : Char → Bool} {cs rest : List Char} (hcs : ∀ c ∈ cs, p c = true)
    (hrest : ∀ c ∈ rest.head?, p c = false) :
    (cs ++ rest).takeWhile p = cs ∧ (cs ++ rest).dropWhile p = rest := by
  rw [List.takeWhile_append_of_pos hcs, List.dropWhile_append_of_pos hcs]
  cases rest with
  | nil => exact ⟨List.append_nil cs, rfl⟩
  | cons c tail =>
    have hc : p c = false := hrest c rfl
    rw [List.takeWhile_cons, List.dropWhile_cons, hc]
    exact ⟨List.append_nil cs, rfl⟩

/-- A class without the ending characters is taken up to the end and no further. -/
theorem span_of_stopped {p : Char → Bool} (hp : ∀ c, endsLexeme c = true → p c = false)
    {cs rest : List Char} (hcs : ∀ c ∈ cs, p c = true) (hrest : Stopped rest) :
    (cs ++ rest).takeWhile p = cs ∧ (cs ++ rest).dropWhile p = rest :=
  span_append hcs fun c hc => hp c (hrest c hc)

/-- A character that ends lexemes goes on with no word. -/
theorem isPart_of_endsLexeme (c : Char) (h : endsLexeme c = true) : Ident.isPart c = false := by
  simp only [endsLexeme, Bool.or_eq_true, beq_iff_eq] at h
  rcases h with ((((rfl | rfl) | rfl) | rfl) | rfl) | rfl <;> decide

/-- Nor does it go on with a number. -/
theorem isDigit_of_endsLexeme (c : Char) (h : endsLexeme c = true) : c.isDigit = false := by
  simp only [endsLexeme, Bool.or_eq_true, beq_iff_eq] at h
  rcases h with ((((rfl | rfl) | rfl) | rfl) | rfl) | rfl <;> decide

/-- In no text there is no lexeme. -/
theorem lex_nil : lex [] = some [] := by rw [lex]

/-- A blank between lexemes is passed over. -/
theorem lex_blank (rest : List Char) : lex (' ' :: rest) = lex rest := by rw [lex]

/-- A text that starts with a lexeme is that lexeme and the lexemes after it. -/
theorem lex_of_next {c : Char} {tail rest : List Char} {l : Lexeme} (hc : c ≠ ' ')
    (h : next (c :: tail) = some (l, rest)) : lex (c :: tail) = (lex rest).map (l :: ·) := by
  rw [lex]
  · split
    · rename_i l' rest' h'
      rw [h] at h'
      cases h'
      rfl
    · rename_i h'
      rw [h] at h'
      cases h'
  · exact hc

/-- A bare word is read as a word, up to what it cannot go on with. -/
theorem next_word {w : String} (hw : Ident.IsBareWord w.toList) {rest : List Char}
    (hrest : ∀ c ∈ rest.head?, Ident.isPart c = false) :
    next (w.toList ++ rest) = some (.word w, rest) := by
  obtain ⟨c, cs, hcs, hstart, hpart⟩ := hw
  have hspan := span_append hpart hrest
  have hname : String.ofList (c :: cs) = w := by rw [← hcs, String.ofList_toList]
  rw [hcs, List.cons_append, next, if_pos hstart, hspan.1, hspan.2, hname]

/-- A bare word before an end is read as a word. -/
theorem lex_word {w : String} (hw : Ident.IsBareWord w.toList) {rest : List Char}
    (hrest : Stopped rest) : lex (w.toList ++ rest) = (lex rest).map (.word w :: ·) := by
  have hnext := next_word hw fun c hc => isPart_of_endsLexeme c (hrest c hc)
  obtain ⟨c, cs, hcs, hstart, hpart⟩ := hw
  rw [hcs, List.cons_append] at hnext ⊢
  refine lex_of_next ?_ hnext
  rintro rfl
  exact absurd hstart (by decide)

/-- A body that starts with a written name goes on with what follows the name. -/
theorem quotedBody_append (name rest : List Char) :
    quotedBody (Ident.doubled name ++ rest) =
      (quotedBody rest).map fun read => (name ++ read.1, read.2) := by
  induction name with
  | nil => simp [Ident.doubled]
  | cons c name ih =>
    -- only the quote is doubled, so that it does not close the name
    by_cases hc : c = '"'
    · subst hc
      rw [Ident.doubled, if_pos rfl, List.cons_append, List.cons_append, quotedBody, ih,
        Option.map_map]
      rfl
    · rw [Ident.doubled, if_neg hc, List.cons_append, quotedBody, ih, Option.map_map]
      · rfl
      · rintro tail rfl _
        exact hc rfl
      · rintro rfl
        exact hc rfl

/-- A quoted body is read as the name it was written for, unless another quote follows. -/
theorem quotedBody_doubled (name : List Char) {rest : List Char} (h : rest.head? ≠ some '"') :
    quotedBody (Ident.doubled name ++ '"' :: rest) = some (name, rest) := by
  have hclose : quotedBody ('"' :: rest) = some ([], rest) := by
    rw [quotedBody]
    rintro tail rfl
    exact h rfl
  rw [quotedBody_append, hclose]
  exact congrArg (fun text => some (text, rest)) (List.append_nil name)

/-- A quoted name that is not empty is read as it was, unless another quote follows. -/
theorem next_quoted {name : String} (hne : name.toList ≠ []) {rest : List Char}
    (hrest : rest.head? ≠ some '"') :
    next ((Ident.quoted name).text.toList ++ rest) = some (.quoted name, rest) := by
  have hbody := quotedBody_doubled name.toList hrest
  rw [Ident.text, String.toList_ofList, List.cons_append, List.append_assoc, List.singleton_append,
    next, if_neg (by decide), if_neg (by decide), if_neg (by decide), if_pos rfl, readQuoted,
    hbody]
  simp only
  rw [if_neg (by simpa using hne), String.ofList_toList]

/-- A quoted name that is not empty is read as it was, before an end. -/
theorem lex_quoted {name : String} (hne : name.toList ≠ []) {rest : List Char}
    (hrest : Stopped rest) :
    lex ((Ident.quoted name).text.toList ++ rest) = (lex rest).map (.quoted name :: ·) := by
  have hhead : rest.head? ≠ some '"' := by
    intro hq
    exact absurd (hrest '"' hq) (by decide)
  have hnext := next_quoted hne hhead
  rw [Ident.text, String.toList_ofList, List.cons_append] at hnext ⊢
  exact lex_of_next (by decide) hnext

/-- The digits of a number are read as that number. -/
theorem numberOf_natDigits (n : Nat) : numberOf (Number.natDigits n) = n :=
  Nat.ofDigitChars_ten_toDigits

/-- The digits of a number are digits. -/
theorem isDigit_of_mem_natDigits {n : Nat} {c : Char} (h : c ∈ Number.natDigits n) :
    c.isDigit = true := Nat.isDigit_of_mem_toDigits (by decide) (by decide) h

/-- A number has a digit at least. -/
theorem natDigits_ne_nil (n : Nat) : Number.natDigits n ≠ [] := Nat.toDigits_ne_nil

/-- A parameter is read with its number. -/
theorem lex_parameter (n : Nat) {rest : List Char} (hrest : Stopped rest) :
    lex ('$' :: (Number.natDigits n ++ rest)) = (lex rest).map (.parameter n :: ·) := by
  have hdigits : ∀ c ∈ Number.natDigits n, c.isDigit = true := fun c => isDigit_of_mem_natDigits
  have hspan := span_of_stopped isDigit_of_endsLexeme hdigits hrest
  refine lex_of_next (by decide) ?_
  rw [next, if_neg (by decide), if_neg (by decide), if_pos rfl, readParameter]
  simp only [hspan.1, hspan.2]
  rw [if_neg (by simpa using natDigits_ne_nil n), numberOf_natDigits]

/-- The two sides of a written truth value are read as numbers. -/
theorem lex_truth (b : Bool) {rest : List Char} (hrest : Stopped rest) :
    lex ("1=".toList ++ (if b then '1' else '0') :: rest) =
      (lex rest).map ([.number 1, .sign "=", .number (if b then 1 else 0)] ++ ·) := by
  have hnone : ∀ c ∈ ([] : List Char), c.isDigit = true := by simp
  -- the digit at the end goes on with no other one
  have hspan := span_of_stopped isDigit_of_endsLexeme hnone hrest
  rw [List.nil_append] at hspan
  have hlast : lex ((if b then '1' else '0') :: rest) =
      (lex rest).map (.number (if b then 1 else 0) :: ·) := by
    cases b <;> refine lex_of_next (by decide) ?_ <;>
      rw [next, if_neg (by decide), if_pos (by decide), hspan.1, hspan.2] <;> rfl
  have hsign (tail : List Char) : lex ('=' :: tail) = (lex tail).map (.sign "=" :: ·) :=
    lex_of_next (by decide) rfl
  have hfirst (tail : List Char) : lex ('1' :: '=' :: tail) =
      (lex ('=' :: tail)).map (.number 1 :: ·) := lex_of_next (by decide) rfl
  show lex ('1' :: '=' :: (if b then '1' else '0') :: rest) = _
  rw [hfirst, hsign, hlast]
  cases lex rest <;> rfl

/-! ### Reading tokens -/

/-- The lexemes that a token is meant to be read as. -/
def Token.lexemes : Token → List Lexeme
  | keyword k => [.word k.text]
  | call f => [.word f.text, .sign "("]
  | openParen => [.sign "("]
  | closeParen => [.sign ")"]
  | comma => [.sign ","]
  | dot => [.sign "."]
  | star => [.sign "*"]
  | sign s => [.sign s.text]
  | toInteger => [.sign "::", .word "integer"]
  | truth b => [.number 1, .sign "=", .number (if b then 1 else 0)]
  | placeholder n => [.parameter n]
  | source a => [.word a.text]
  | column (.bare s) => [.word s]
  | column (.quoted s) => [.quoted s]
  | name declared => [.word declared]
  | integer n => [.number n.toNat]

/-- The lexemes that some tokens are meant to be read as. -/
def lexemes (tokens : List Token) : List Lexeme := tokens.flatMap Token.lexemes

/-- No tokens are read as no lexemes. -/
@[simp] theorem lexemes_nil : lexemes [] = [] := rfl

/-- Tokens are read one after the other. -/
@[simp] theorem lexemes_cons (t : Token) (ts : List Token) :
    lexemes (t :: ts) = t.lexemes ++ lexemes ts := rfl

/-- So are two lists of them. -/
@[simp] theorem lexemes_append (ts us : List Token) :
    lexemes (ts ++ us) = lexemes ts ++ lexemes us := List.flatMap_append

/-- Every token is read as something. -/
theorem Token.lexemes_ne_nil (t : Token) : t.lexemes ≠ [] := by
  cases t with
  | column i => cases i <;> exact List.cons_ne_nil _ _
  | _ => exact List.cons_ne_nil _ _

/-- The token may stand in a condition, and what it names has been resolved. -/
def Token.Legible : Token → Prop
  | source a => a.Assigned
  | column i => i.Accepted
  | name _ | integer _ => False
  | _ => True

/-- A keyword reads as a word. -/
theorem isBareWord_keyword (k : Keyword) : Ident.IsBareWord k.text.toList := by
  cases k <;> exact ⟨_, _, rfl, rfl, List.all_eq_true.mp rfl⟩

/-- So does the name of a function. -/
theorem isBareWord_function (f : Function) : Ident.IsBareWord f.text.toList := by
  cases f <;> exact ⟨_, _, rfl, rfl, List.all_eq_true.mp rfl⟩

/-- So does an alias that has been assigned. -/
theorem isBareWord_alias {a : Alias} (h : a.Assigned) : Ident.IsBareWord a.text.toList := by
  refine ⟨a.initial, Number.natDigits a.index, ?_, Alias.isStart_of_assigned h, ?_⟩
  · rw [Alias.text, String.toList_ofList]
  · intro c hc
    have hdigit := isDigit_of_mem_natDigits hc
    simp [Ident.isPart, Char.isAlphanum, hdigit]

/-- One of the signs `>` and `<` is read alone, as nothing after it goes on with `=`. -/
theorem readSign_of_stopped {rest : List Char} (hrest : Stopped rest) :
    readSign ('>' :: rest) = some (.sign ">", rest) ∧
      readSign ('<' :: rest) = some (.sign "<", rest) := by
  have hne : ∀ tail, rest ≠ '=' :: tail := by
    rintro tail rfl
    exact absurd (hrest '=' rfl) (by decide)
  constructor <;> rw [readSign] <;> exact hne

/-- A token is read as it was meant, if it clings to what follows or what follows ends it. -/
theorem lex_token {t : Token} (ht : t.Legible) {rest : List Char}
    (hrest : t.clingsToNext = true ∨ Stopped rest) :
    lex (t.text.toList ++ rest) = (lex rest).map (t.lexemes ++ ·) := by
  -- a token that clings to the next one is a sign, and a sign needs no end
  cases t with
  | keyword k => exact lex_word (isBareWord_keyword k) (hrest.resolve_left Bool.false_ne_true)
  | call f =>
    have hword := lex_word (isBareWord_function f) (stopped_cons (c := '(') rfl rest)
    have hopen := lex_of_next (c := '(') (l := .sign "(") (by decide) (rfl : _ = some (_, rest))
    show lex ((f.text ++ "(").toList ++ rest) = _
    rw [String.toList_append, List.append_assoc]
    show lex (f.text.toList ++ '(' :: rest) = _
    rw [hword, hopen]
    cases lex rest <;> rfl
  | openParen => exact lex_of_next (c := '(') (l := .sign "(") (by decide) rfl
  | closeParen => exact lex_of_next (c := ')') (l := .sign ")") (by decide) rfl
  | comma => exact lex_of_next (c := ',') (l := .sign ",") (by decide) rfl
  | dot => exact lex_of_next (c := '.') (l := .sign ".") (by decide) rfl
  | star => exact lex_of_next (c := '*') (l := .sign "*") (by decide) rfl
  | sign s =>
    have hstop := hrest.resolve_left Bool.false_ne_true
    cases s with
    | eq => exact lex_of_next (c := '=') (l := .sign "=") (by decide) rfl
    | gteq => exact lex_of_next (c := '>') (l := .sign ">=") (by decide) rfl
    | lteq => exact lex_of_next (c := '<') (l := .sign "<=") (by decide) rfl
    | gt => exact lex_of_next (c := '>') (by decide) (readSign_of_stopped hstop).1
    | lt => exact lex_of_next (c := '<') (by decide) (readSign_of_stopped hstop).2
  | toInteger =>
    have hstop := hrest.resolve_left Bool.false_ne_true
    have hword : lex ("integer".toList ++ rest) = _ :=
      lex_word ⟨_, _, rfl, rfl, List.all_eq_true.mp rfl⟩ hstop
    have hcast : lex (':' :: ':' :: ("integer".toList ++ rest)) = _ :=
      lex_of_next (l := .sign "::") (by decide) rfl
    show lex (':' :: ':' :: ("integer".toList ++ rest)) = _
    rw [hcast, hword]
    cases lex rest <;> rfl
  | truth b =>
    have hstop := hrest.resolve_left Bool.false_ne_true
    have htext : (Token.truth b).text.toList ++ rest =
        "1=".toList ++ (if b then '1' else '0') :: rest := by cases b <;> rfl
    rw [htext]
    exact lex_truth b hstop
  | placeholder n =>
    have hstop := hrest.resolve_left Bool.false_ne_true
    show lex (("$" ++ Number.natText n).toList ++ rest) = _
    have htext : ("$" ++ Number.natText n).toList ++ rest =
        '$' :: (Number.natDigits n ++ rest) := by simp [Number.natText]
    rw [htext]
    exact lex_parameter n hstop
  | source a => exact lex_word (isBareWord_alias ht) (hrest.resolve_left Bool.false_ne_true)
  | column i =>
    have hstop := hrest.resolve_left Bool.false_ne_true
    cases i with
    | bare name => exact lex_word (Ident.isBareWord_of_accepted ht) hstop
    | quoted name => exact lex_quoted (Ident.ne_nil_of_accepted ht) hstop
  | name declared => exact ht.elim
  | integer n => exact ht.elim

/-- What clings to the token before it starts with a character that ends that token. -/
theorem stopped_of_clingsToLast {t : Token} (h : t.clingsToLast = true) (rest : List Char) :
    Stopped (t.text.toList ++ rest) := by
  cases t with
  | closeParen => exact stopped_cons rfl rest
  | comma => exact stopped_cons rfl rest
  | dot => exact stopped_cons rfl rest
  | toInteger => exact stopped_cons rfl (":integer".toList ++ rest)
  | _ => cases h

/-- A text starts with the text of its first token. -/
theorem text_cons (t : Token) (ts : List Token) :
    ∃ rest, (text (t :: ts)).toList = t.text.toList ++ rest := by
  cases ts with
  | nil => exact ⟨[], (List.append_nil _).symm⟩
  | cons u us =>
    rw [text]
    split
    · exact ⟨_, String.toList_append⟩
    · exact ⟨_, by rw [String.toList_append, String.toList_append, List.append_assoc]⟩

/-- The text of legible tokens is read as the lexemes that they are meant to be. -/
theorem lex_text {ts : List Token} (h : ∀ t ∈ ts, t.Legible) :
    lex (text ts).toList = some (lexemes ts) := by
  induction ts with
  | nil => exact lex_nil
  | cons t ts ih =>
    have ht : t.Legible := h t List.mem_cons_self
    have hts := ih fun u hu => h u (List.mem_cons_of_mem _ hu)
    -- by induction on the tokens, where the start of the rest decides what ends the first one
    cases ts with
    | nil =>
      have hread := lex_token ht (.inr stopped_nil)
      rw [List.append_nil, lex_nil] at hread
      exact hread
    | cons u us =>
      rw [text]
      split
      · rename_i hcling
        have hrest : t.clingsToNext = true ∨ Stopped (text (u :: us)).toList := by
          rcases Bool.or_eq_true_iff.mp hcling with hnext | hlast
          · exact .inl hnext
          · obtain ⟨rest, htext⟩ := text_cons u us
            rw [htext]
            exact .inr (stopped_of_clingsToLast hlast rest)
        rw [String.toList_append, lex_token ht hrest, hts]
        rfl
      · -- a blank ends whatever stands before it
        have hread := lex_token ht (.inr (stopped_cons (c := ' ') rfl (text (u :: us)).toList))
        rw [String.toList_append, String.toList_append, List.append_assoc]
        show lex (t.text.toList ++ ' ' :: (text (u :: us)).toList) = _
        rw [hread, lex_blank, hts]
        rfl

end Listing.Sql
