import Listing.Proofs.Sql.Formula
import Listing.Proofs.Sql.Lexeme

namespace Listing.Sql

/-!
# The grammar of conditions

How a reader of SQL takes the lexemes of a condition: `OR` binds weakest, then `AND`, then `NOT`;
parentheses make a condition of any kind a factor.

* `Atom.tokens` — an atom over placeholders as it is written;
* `Reads` — the grammar, with the formula that each derivation gives;
* `Reads.unique` — lexemes are read as one formula at most.
-/

/-! ### Operands -/

namespace Operand

/-- The lexemes of an operand, before others. -/
def spelling : Operand → List Lexeme → List Lexeme
  | column source name, rest =>
    .word source.text :: .sign "." :: ((Token.column name).lexemes ++ rest)
  | yearOf x, rest =>
    .word "EXTRACT" :: .sign "(" :: .word "YEAR" :: .word "FROM" ::
      spelling x (.sign ")" :: .sign "::" :: .word "integer" :: rest)
  | monthOf x, rest =>
    .word "EXTRACT" :: .sign "(" :: .word "MONTH" :: .word "FROM" ::
      spelling x (.sign ")" :: .sign "::" :: .word "integer" :: rest)
  | lower x, rest => .word "LOWER" :: .sign "(" :: spelling x (.sign ")" :: rest)
  | upper x, rest => .word "UPPER" :: .sign "(" :: spelling x (.sign ")" :: rest)
  | concat x y, rest =>
    .word "CONCAT" :: .sign "(" :: spelling x (.sign "," :: spelling y (.sign ")" :: rest))
  | coalesce x y, rest =>
    .word "COALESCE" :: .sign "(" :: spelling x (.sign "," :: spelling y (.sign ")" :: rest))

/-- The tokens of an operand are read as it is spelled. -/
theorem lexemes_append_eq_spelling (x : Operand) (rest : List Lexeme) :
    lexemes x.tokens ++ rest = x.spelling rest := by
  induction x generalizing rest with
  | column source name => simp [tokens, spelling, Token.lexemes]
  | yearOf x ih | monthOf x ih =>
    rw [spelling, ← ih]
    simp [tokens, extracted, called, Token.lexemes, Function.text, Keyword.text]
  | lower x ih | upper x ih =>
    rw [spelling, ← ih]
    simp [tokens, called, Token.lexemes, Function.text]
  | concat x y ihx ihy | coalesce x y ihx ihy =>
    rw [spelling, ← ihy, ← ihx]
    simp [tokens, called, Token.lexemes, Function.text]

end Operand

/-- Aliases are told apart by their texts. -/
theorem Alias.text_injective {a b : Alias} (h : a.text = b.text) : a = b := by
  have hchars := String.ofList_injective h
  rw [List.cons.injEq] at hchars
  have hindex : a.index = b.index := by
    rw [← numberOf_natDigits a.index, ← numberOf_natDigits b.index, hchars.2]
  cases a
  cases b
  cases hchars.1
  cases hindex
  rfl

/-- An alias is not a keyword, because the character after its letter is a digit. -/
theorem Alias.text_ne_not (a : Alias) : a.text ≠ "NOT" := by
  intro h
  have hchars : a.initial :: Number.natDigits a.index = ['N', 'O', 'T'] :=
    String.ofList_injective h
  rw [List.cons.injEq] at hchars
  have hdigit : 'O'.isDigit = true := isDigit_of_mem_natDigits (n := a.index) (by simp [hchars.2])
  exact absurd hdigit (by decide)

/-- The name of a column is one lexeme, which says how it is written. -/
theorem lexemes_column_injective {i j : Ident} {rest rest' : List Lexeme}
    (h : (Token.column i).lexemes ++ rest = (Token.column j).lexemes ++ rest') :
    i = j ∧ rest = rest' := by
  cases i <;> cases j <;> simp_all [Token.lexemes]

/-- No operand is the start of another one. -/
theorem Operand.spelling_injective {x y : Operand} {rest rest' : List Lexeme}
    (h : x.spelling rest = y.spelling rest') : x = y ∧ rest = rest' := by
  induction x generalizing y rest rest' with
  | column source name =>
    -- two operands that begin alike are of one kind, and the rest is that of their parts
    cases y <;> simp [spelling] at h
    obtain ⟨hsource, hrest⟩ := h
    cases Alias.text_injective hsource
    obtain ⟨rfl, rfl⟩ := lexemes_column_injective hrest
    exact ⟨rfl, rfl⟩
  | yearOf x ih | monthOf x ih | lower x ih | upper x ih =>
    cases y <;> simp [spelling] at h
    obtain ⟨rfl, hrest⟩ := ih h
    cases hrest
    exact ⟨rfl, rfl⟩
  | concat x x' ihx ihy | coalesce x x' ihx ihy =>
    cases y <;> simp [spelling] at h
    obtain ⟨rfl, hrest⟩ := ihx h
    rw [List.cons.injEq] at hrest
    obtain ⟨rfl, hlast⟩ := ihy hrest.2
    rw [List.cons.injEq] at hlast
    exact ⟨rfl, hlast.2⟩

/-- An operand starts with a word, and that word is not `NOT`. -/
theorem Operand.spelling_head (x : Operand) (rest : List Lexeme) :
    ∃ w tail, w ≠ "NOT" ∧ x.spelling rest = .word w :: tail := by
  cases x with
  | column source name => exact ⟨_, _, source.text_ne_not, rfl⟩
  | _ => exact ⟨_, _, by decide, rfl⟩

/-! ### Atoms -/

namespace Atom

/-- An atom over placeholders as it is written. -/
def tokens : Atom Nat → List Token
  | compare lhs comparison slot => lhs.tokens ++ [comparison.token, .placeholder slot]
  | nullness lhs expected =>
    lhs.tokens ++ .keyword .is :: ((if expected then [] else [.keyword .not]) ++ [.keyword .null])
  | inList lhs slots negated =>
    lhs.tokens ++ ((if negated then [.keyword .not] else []) ++ .keyword .in_ ::
      Condition.parenthesised (commaSeparated (slots.map fun slot => [.placeholder slot])))

/-- The list of an atom is not empty, if it has one: `IN ()` is no SQL. -/
def Listed {α : Type} : Atom α → Prop
  | inList _ values _ => values ≠ []
  | _ => True

/-- The operand of an atom. -/
def lhs {α : Type} : Atom α → Operand
  | compare lhs .. | nullness lhs .. | inList lhs .. => lhs

/-- What an atom says of its operand. -/
def predicate : Atom Nat → List Lexeme
  | compare _ comparison slot => comparison.token.lexemes ++ [.parameter slot]
  | nullness _ expected =>
    .word "IS" :: ((if expected then [] else [.word "NOT"]) ++ [.word "NULL"])
  | inList _ slots negated =>
    (if negated then [.word "NOT"] else []) ++ .word "IN" :: .sign "(" ::
      (lexemes (commaSeparated (slots.map fun slot => [.placeholder slot])) ++ [.sign ")"])

/-- An atom is read as its operand and what it says of it. -/
theorem lexemes_tokens (a : Atom Nat) (rest : List Lexeme) :
    lexemes a.tokens ++ rest = a.lhs.spelling (a.predicate ++ rest) := by
  rw [← Operand.lexemes_append_eq_spelling]
  cases a with
  | compare lhs comparison slot => simp [tokens, Atom.lhs, predicate, Token.lexemes]
  | nullness lhs expected =>
    cases expected <;> simp [tokens, Atom.lhs, predicate, Token.lexemes, Keyword.text]
  | inList lhs slots negated =>
    cases negated <;>
      simp [tokens, Atom.lhs, predicate, Token.lexemes, Keyword.text, Condition.parenthesised]

/-- A list of placeholders ends where its parenthesis closes. -/
theorem slots_injective {slots slots' : List Nat} {rest rest' : List Lexeme}
    (h : lexemes (commaSeparated (slots.map fun slot => [.placeholder slot])) ++ .sign ")" :: rest =
      lexemes (commaSeparated (slots'.map fun slot => [.placeholder slot])) ++ .sign ")" :: rest') :
    slots = slots' ∧ rest = rest' := by
  induction slots generalizing slots' with
  | nil =>
    match slots' with
    | [] => simpa [commaSeparated] using h
    | [n] | n :: m :: ns => simp [commaSeparated, Token.lexemes] at h
  | cons n ns ih =>
    -- a comma tells a longer list from a shorter one, the bracket the end
    match ns, slots' with
    | [], [] | m :: ms, [] => simp [commaSeparated, Token.lexemes] at h
    | [], [n'] => simpa [commaSeparated, Token.lexemes] using h
    | [], n' :: m' :: ms' | m :: ms, [n'] => simp [commaSeparated, Token.lexemes] at h
    | m :: ms, n' :: m' :: ms' =>
      simp only [List.map_cons, commaSeparated, lexemes_cons, Token.lexemes, List.cons_append,
        List.nil_append, List.cons.injEq, Lexeme.parameter.injEq, true_and] at h
      have hms : m :: ms = m' :: ms' ∧ rest = rest' := ih h.2
      exact ⟨by rw [h.1, hms.1], hms.2⟩

/-- Each comparison is one lexeme of its own. -/
theorem comparison_injective {c c' : Comparison} {rest rest' : List Lexeme}
    (h : c.token.lexemes ++ rest = c'.token.lexemes ++ rest') : c = c' ∧ rest = rest' := by
  cases c <;> cases c' <;>
    simp [Comparison.token, Token.lexemes, Keyword.text, Sign.text] at h ⊢ <;> exact h

/-- What one atom says of an operand is no start of what another one says. -/
theorem predicate_injective {a b : Atom Nat} (hlhs : a.lhs = b.lhs) {rest rest' : List Lexeme}
    (h : a.predicate ++ rest = b.predicate ++ rest') : a = b ∧ rest = rest' := by
  -- the words after the operand tell the kinds of atoms apart
  cases a with
  | compare x c n =>
    cases b with
    | compare y c' n' =>
      cases hlhs
      simp only [predicate, List.append_assoc] at h
      obtain ⟨rfl, hrest⟩ := comparison_injective h
      cases hrest
      exact ⟨rfl, rfl⟩
    | nullness y e' =>
      cases c <;> simp [predicate, Comparison.token, Token.lexemes, Keyword.text] at h
    | inList y ns' g' =>
      cases c <;> cases g' <;>
        simp [predicate, Comparison.token, Token.lexemes, Keyword.text] at h
  | nullness x e =>
    cases b with
    | compare y c' n' =>
      cases c' <;> simp [predicate, Comparison.token, Token.lexemes, Keyword.text] at h
    | nullness y e' =>
      cases hlhs
      cases e <;> cases e' <;> simp [predicate] at h ⊢ <;> exact h
    | inList y ns' g' => cases g' <;> simp [predicate] at h
  | inList x ns g =>
    cases b with
    | compare y c' n' =>
      cases c' <;> cases g <;>
        simp [predicate, Comparison.token, Token.lexemes, Keyword.text] at h
    | nullness y e' => cases g <;> simp [predicate] at h
    | inList y ns' g' =>
      cases hlhs
      have hg : g = g' := by
        cases g <;> cases g' <;> simp [predicate] at h ⊢
      cases hg
      have hlist : lexemes (commaSeparated (ns.map fun slot => [.placeholder slot])) ++
          .sign ")" :: rest =
          lexemes (commaSeparated (ns'.map fun slot => [.placeholder slot])) ++
          .sign ")" :: rest' := by
        cases g <;> simpa [predicate] using h
      obtain ⟨rfl, rfl⟩ := slots_injective hlist
      exact ⟨rfl, rfl⟩

/-- No atom is the start of another one. -/
theorem lexemes_injective {a b : Atom Nat} {rest rest' : List Lexeme}
    (h : lexemes a.tokens ++ rest = lexemes b.tokens ++ rest') : a = b ∧ rest = rest' := by
  rw [lexemes_tokens, lexemes_tokens] at h
  obtain ⟨hlhs, hpredicate⟩ := Operand.spelling_injective h
  exact predicate_injective hlhs hpredicate

/-- An atom starts with a word, and that word is not `NOT`. -/
theorem lexemes_head (a : Atom Nat) (rest : List Lexeme) :
    ∃ w tail, w ≠ "NOT" ∧ lexemes a.tokens ++ rest = .word w :: tail := by
  rw [lexemes_tokens]
  exact a.lhs.spelling_head _

end Atom

/-! ### Conditions -/

/-- How tightly a condition holds together. -/
inductive Level
  | factor
  | conjunction
  | disjunction
  deriving DecidableEq, Repr

/-- The grammar of conditions, with the formula that each derivation gives. -/
inductive Reads : Level → List Lexeme → Formula Nat → Prop
  | atom (a : Atom Nat) (h : a.Listed) : Reads .factor (lexemes a.tokens) (.atom a)
  | constant (b : Bool) : Reads .factor (Token.truth b).lexemes (.constant b)
  | not {ts : List Lexeme} {f : Formula Nat} (h : Reads .factor ts f) :
    Reads .factor (.word "NOT" :: ts) (.not f)
  | group {ts : List Lexeme} {f : Formula Nat} (h : Reads .disjunction ts f) :
    Reads .factor (.sign "(" :: (ts ++ [.sign ")"])) f
  | factor {ts : List Lexeme} {f : Formula Nat} (h : Reads .factor ts f) : Reads .conjunction ts f
  | and {ts us : List Lexeme} {f g : Formula Nat} (hf : Reads .factor ts f)
    (hg : Reads .conjunction us g) : Reads .conjunction (ts ++ .word "AND" :: us) (.and f g)
  | conjunction {ts : List Lexeme} {f : Formula Nat} (h : Reads .conjunction ts f) :
    Reads .disjunction ts f
  | or {ts us : List Lexeme} {f g : Formula Nat} (hf : Reads .conjunction ts f)
    (hg : Reads .disjunction us g) : Reads .disjunction (ts ++ .word "OR" :: us) (.or f g)

/-- The condition cannot go on with the lexeme after it. -/
def Level.Ends : Level → List Lexeme → Prop
  | factor, _ => True
  | conjunction, rest => rest.head? ≠ some (.word "AND")
  | disjunction, rest => rest.head? ≠ some (.word "AND") ∧ rest.head? ≠ some (.word "OR")

namespace Reads

variable {us rest' tail : List Lexeme} {g : Formula Nat}

/-- A factor that starts with a word other than `NOT` is an atom. -/
theorem atom_of_head (hread : Reads .factor us g) {w : String} (hw : w ≠ "NOT")
    (heq : us ++ rest' = .word w :: tail) :
    ∃ a : Atom Nat, us = lexemes a.tokens ∧ g = .atom a := by
  cases hread with
  | atom a ha => exact ⟨a, rfl, rfl⟩
  | constant b => simp [Token.lexemes] at heq
  | not h =>
    rw [List.cons_append, List.cons.injEq, Lexeme.word.injEq] at heq
    exact absurd heq.1.symm hw
  | group h => simp at heq

/-- A factor that starts with a number is a truth value. -/
theorem constant_of_head (hread : Reads .factor us g) {n : Nat}
    (heq : us ++ rest' = .number n :: tail) :
    ∃ b, us = (Token.truth b).lexemes ∧ g = .constant b := by
  cases hread with
  | atom a ha =>
    obtain ⟨w, _, _, hhead⟩ := a.lexemes_head rest'
    simp [hhead] at heq
  | constant b => exact ⟨b, rfl, rfl⟩
  | not h => simp at heq
  | group h => simp at heq

/-- A factor that starts with `NOT` is a negation. -/
theorem not_of_head (hread : Reads .factor us g) (heq : us ++ rest' = .word "NOT" :: tail) :
    ∃ body f, us = .word "NOT" :: body ∧ g = .not f ∧ Reads .factor body f := by
  cases hread with
  | atom a ha =>
    obtain ⟨w, _, hw, hhead⟩ := a.lexemes_head rest'
    rw [hhead, List.cons.injEq, Lexeme.word.injEq] at heq
    exact absurd heq.1 hw
  | constant b => simp [Token.lexemes] at heq
  | not h => exact ⟨_, _, rfl, rfl, h⟩
  | group h => simp at heq

/-- A factor that starts with a parenthesis is a condition between parentheses. -/
theorem group_of_head (hread : Reads .factor us g) (heq : us ++ rest' = .sign "(" :: tail) :
    ∃ body, us = .sign "(" :: (body ++ [.sign ")"]) ∧ Reads .disjunction body g := by
  cases hread with
  | atom a ha =>
    obtain ⟨w, _, _, hhead⟩ := a.lexemes_head rest'
    simp [hhead] at heq
  | constant b => simp [Token.lexemes] at heq
  | not h => simp at heq
  | group h => exact ⟨_, rfl, h⟩

/-- Of a list that starts with two conditions, the conditions are the same, if neither of them could
go on. -/
theorem start_unique {level : Level} {ts us rest rest' : List Lexeme} {f g : Formula Nat}
    (hread : Reads level ts f) (hread' : Reads level us g) (heq : ts ++ rest = us ++ rest')
    (hrest : level.Ends rest) (hrest' : level.Ends rest') : f = g ∧ rest = rest' := by
  induction hread generalizing us rest rest' g with
  | atom a ha =>
    obtain ⟨w, tail, hw, hhead⟩ := a.lexemes_head rest
    obtain ⟨b, rfl, rfl⟩ := hread'.atom_of_head hw (heq.symm.trans hhead)
    obtain ⟨rfl, rfl⟩ := Atom.lexemes_injective heq
    exact ⟨rfl, rfl⟩
  | constant b =>
    obtain ⟨b', rfl, rfl⟩ := hread'.constant_of_head heq.symm
    cases b <;> cases b' <;> simp [Token.lexemes] at heq ⊢ <;> exact heq
  | not h ih =>
    obtain ⟨body, f', rfl, rfl, h'⟩ := hread'.not_of_head heq.symm
    rw [List.cons_append, List.cons_append, List.cons.injEq] at heq
    obtain ⟨rfl, hr⟩ := ih h' heq.2 trivial trivial
    exact ⟨rfl, hr⟩
  | group h ih =>
    obtain ⟨body, rfl, h'⟩ := hread'.group_of_head heq.symm
    simp only [List.cons_append, List.append_assoc, List.nil_append, List.cons.injEq,
      true_and] at heq
    -- neither body goes on with a closing parenthesis
    obtain ⟨rfl, hr⟩ := ih h' heq (by simp [Level.Ends]) (by simp [Level.Ends])
    rw [List.cons.injEq] at hr
    exact ⟨rfl, hr.2⟩
  | factor h ih =>
    cases hread' with
    | factor h' => exact ih h' heq trivial trivial
    | and hf' hg' =>
      rw [List.append_assoc] at heq
      obtain ⟨_, rfl⟩ := ih hf' heq trivial trivial
      exact absurd rfl hrest
  | and hf hg ihf ihg =>
    cases hread' with
    | factor h' =>
      rw [List.append_assoc] at heq
      obtain ⟨_, rfl⟩ := ihf h' heq trivial trivial
      exact absurd rfl hrest'
    | and hf' hg' =>
      rw [List.append_assoc, List.append_assoc] at heq
      obtain ⟨rfl, htail⟩ := ihf hf' heq trivial trivial
      rw [List.cons_append, List.cons_append, List.cons.injEq] at htail
      obtain ⟨rfl, hr⟩ := ihg hg' htail.2 hrest hrest'
      exact ⟨rfl, hr⟩
  | conjunction h ih =>
    cases hread' with
    | conjunction h' => exact ih h' heq hrest.1 hrest'.1
    | or hf' hg' =>
      rw [List.append_assoc] at heq
      obtain ⟨_, rfl⟩ := ih hf' heq hrest.1 (by simp [Level.Ends])
      exact absurd rfl hrest.2
  | or hf hg ihf ihg =>
    cases hread' with
    | conjunction h' =>
      rw [List.append_assoc] at heq
      obtain ⟨_, rfl⟩ := ihf h' heq (by simp [Level.Ends]) hrest'.1
      exact absurd rfl hrest'.2
    | or hf' hg' =>
      rw [List.append_assoc, List.append_assoc] at heq
      obtain ⟨rfl, htail⟩ := ihf hf' heq (by simp [Level.Ends]) (by simp [Level.Ends])
      rw [List.cons_append, List.cons_append, List.cons.injEq] at htail
      obtain ⟨rfl, hr⟩ := ihg hg' htail.2 hrest hrest'
      exact ⟨rfl, hr⟩

/-- Lexemes are read as one formula at most. -/
theorem unique {level : Level} {ts : List Lexeme} {f g : Formula Nat}
    (hf : Reads level ts f) (hg : Reads level ts g) : f = g := by
  have hends : level.Ends [] := by cases level <;> simp [Level.Ends]
  exact (hf.start_unique hg rfl hends hends).1

end Reads

end Listing.Sql
