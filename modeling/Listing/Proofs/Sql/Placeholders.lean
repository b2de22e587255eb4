import Listing.Proofs.Sql.Lexeme
import Listing.Proofs.Sql.Write

namespace Listing.Sql

/-!
# Placeholders in the text of a condition

* `Condition.lex_condition` — the text of a resolved condition is read as the lexemes of its tokens;
* `parameters` — the numbers of the placeholders in a text, from left to right; a dollar sign inside
  a name is not one;
* `parameters_tokens` — those of a condition are the numbers after the ones in use, each once;
* `Condition.leaves` — the conditions at the ends of a tree, whose terms are those of the tree.
-/

/-! ### Reading the text of a condition -/

/-- The tokens may stand in a condition, and what they name has been resolved. -/
def AllLegible (ts : List Token) : Prop := ∀ t ∈ ts, t.Legible

/-- No tokens, nothing to resolve. -/
@[simp] theorem allLegible_nil : AllLegible [] := fun _ ht => absurd ht List.not_mem_nil

/-- Tokens are legible one by one. -/
@[simp] theorem allLegible_cons {t : Token} {ts : List Token} :
    AllLegible (t :: ts) ↔ t.Legible ∧ AllLegible ts := List.forall_mem_cons

/-- Two lists of tokens are legible if both are. -/
@[simp] theorem allLegible_append {ts us : List Token} :
    AllLegible (ts ++ us) ↔ AllLegible ts ∧ AllLegible us := List.forall_mem_append

/-- Commas between legible tokens are legible. -/
theorem allLegible_commaSeparated {tss : List (List Token)} (h : ∀ ts ∈ tss, AllLegible ts) :
    AllLegible (commaSeparated tss) := by
  induction tss with
  | nil => exact allLegible_nil
  | cons ts rest ih =>
    obtain ⟨hts, hrest⟩ := List.forall_mem_cons.mp h
    cases rest with
    | nil => exact hts
    | cons next more =>
      rw [commaSeparated, allLegible_append, allLegible_cons]
      exact ⟨hts, trivial, ih hrest⟩

/-- The tokens of a resolved operand are legible. -/
theorem Operand.allLegible_tokens {x : Operand} (h : x.Resolved) : AllLegible x.tokens := by
  induction x with
  | column source name =>
    simp only [tokens, allLegible_cons, Token.Legible, true_and]
    exact ⟨h.1, h.2, allLegible_nil⟩
  | yearOf x ih | monthOf x ih => simp [tokens, extracted, called, Token.Legible, ih h]
  | lower x ih | upper x ih => simp [tokens, called, Token.Legible, ih h]
  | concat x y ihx ihy | coalesce x y ihx ihy =>
    simp [tokens, called, Token.Legible, ihx h.1, ihy h.2]

namespace Condition

/-- So are parentheses around them. -/
theorem allLegible_parenthesised {ts : List Token} (h : AllLegible ts) :
    AllLegible (parenthesised ts) := by
  simp [parenthesised, Token.Legible, h]

/-- So is a link between two conditions. -/
theorem allLegible_joined {link : Link} {first second : List Token} (h₁ : AllLegible first)
    (h₂ : AllLegible second) : AllLegible (joined link.token first second) := by
  have hlink : link.token.Legible := by cases link <;> trivial
  unfold joined
  split
  · exact h₂
  split
  · exact h₁
  · simp [h₁, h₂, hlink]

/-- A list of placeholders is legible, whatever their numbers. -/
theorem allLegible_placeholders (slots : List Nat) :
    AllLegible (commaSeparated (slots.map fun slot => [.placeholder slot])) :=
  allLegible_commaSeparated (List.forall_mem_map.mpr fun _ _ => by simp [Token.Legible])

/-- A group is legible if all its parts are. -/
theorem allLegible_groupTokens {parts : List Condition} (link : Link)
    (h : ∀ part ∈ parts, ∀ used, AllLegible (part.tokens used)) (used : Nat) :
    AllLegible (groupTokens link used parts) :=
  groupTokens_induction allLegible_nil (fun _ => allLegible_parenthesised)
    (fun _ _ => allLegible_joined) h used

/-- The tokens of a resolved condition are legible. -/
theorem allLegible_tokens {c : Condition} (h : c.Resolved) (used : Nat) :
    AllLegible (c.tokens used) := by
  -- nothing but operands has names, and these have been resolved by the condition being so
  induction c using induction generalizing used with
  | all parts ih =>
    have hparts := resolved_all.mp h
    exact allLegible_groupTokens .and (fun part hpart => ih part hpart (hparts part hpart)) used
  | any parts ih =>
    have hparts := resolved_any.mp h
    exact allLegible_groupTokens .or (fun part hpart => ih part hpart (hparts part hpart)) used
  | not part ih =>
    have hpart := allLegible_parenthesised (ih (resolved_not.mp h) used)
    rw [tokens]
    cases (part.tokens used).isEmpty <;> simp [Token.Legible, hpart]
  | compare lhs comparison value =>
    have hlhs := Operand.allLegible_tokens (h lhs List.mem_cons_self)
    cases comparison <;> simp [tokens, hlhs, Comparison.token, Token.Legible]
  | nullness lhs expected =>
    have hlhs := Operand.allLegible_tokens (h lhs List.mem_cons_self)
    cases expected <;> simp [tokens, hlhs, Token.Legible]
  | inList lhs values negated =>
    have hlhs := Operand.allLegible_tokens (h lhs List.mem_cons_self)
    have hslots := allLegible_parenthesised
      (allLegible_placeholders (List.range' (used + 1) values.length))
    rw [tokens, placeholders_eq]
    split
    · simp [Token.Legible]
    · cases negated <;> simp [hlhs, hslots, Token.Legible]
  | constant b => simp [tokens, Token.Legible]

/-- The text of a resolved condition is read as the lexemes of its tokens. -/
theorem lex_condition {c : Condition} (h : c.Resolved) (used : Nat) :
    lex (c.text used).toList = some (lexemes (c.tokens used)) := lex_text (allLegible_tokens h used)

end Condition

/-! ### The numbers of the placeholders -/

/-- The number of a placeholder. -/
def Lexeme.parameter? : Lexeme → Option Nat
  | parameter n => some n
  | _ => none

/-- The numbers of the placeholders among some lexemes, in order. -/
def parameters (ls : List Lexeme) : List Nat := ls.filterMap Lexeme.parameter?

/-- In no text there is no placeholder. -/
@[simp] theorem parameters_nil : parameters [] = [] := rfl

/-- The placeholders of two texts are those of the first, and then those of the second. -/
@[simp] theorem parameters_append (ls ms : List Lexeme) :
    parameters (ls ++ ms) = parameters ls ++ parameters ms := List.filterMap_append

/-- A word is no placeholder. -/
@[simp] theorem parameters_word (w : String) (ls : List Lexeme) :
    parameters (.word w :: ls) = parameters ls := rfl

/-- A quoted name is none, even if it has a dollar sign. -/
@[simp] theorem parameters_quoted (name : String) (ls : List Lexeme) :
    parameters (.quoted name :: ls) = parameters ls := rfl

/-- A sign is none. -/
@[simp] theorem parameters_sign (s : String) (ls : List Lexeme) :
    parameters (.sign s :: ls) = parameters ls := rfl

/-- A number is none. -/
@[simp] theorem parameters_number (n : Nat) (ls : List Lexeme) :
    parameters (.number n :: ls) = parameters ls := rfl

/-- A placeholder is the first of those from there on. -/
@[simp] theorem parameters_parameter (n : Nat) (ls : List Lexeme) :
    parameters (.parameter n :: ls) = n :: parameters ls := rfl

/-- There is no placeholder in an operand, whatever characters its names have. -/
theorem Operand.parameters_tokens (x : Operand) : parameters (lexemes x.tokens) = [] := by
  induction x with
  | column source name => cases name <;> simp [tokens, Token.lexemes]
  | yearOf x ih | monthOf x ih => simp [tokens, extracted, called, Token.lexemes, ih]
  | lower x ih | upper x ih => simp [tokens, called, Token.lexemes, ih]
  | concat x y ihx ihy | coalesce x y ihx ihy => simp [tokens, called, Token.lexemes, ihx, ihy]

namespace Condition

/-- Parentheses add no placeholder. -/
theorem parameters_parenthesised (ts : List Token) :
    parameters (lexemes (parenthesised ts)) = parameters (lexemes ts) := by
  simp [parenthesised, Token.lexemes]

/-- Nor do those around a part of another kind. -/
theorem parameters_enclosed (link : Link) (part : Condition) (ts : List Token) :
    parameters (lexemes (enclosed link part ts)) = parameters (lexemes ts) := by
  unfold enclosed
  split
  · exact parameters_parenthesised ts
  · rfl

/-- Two linked conditions have their placeholders one after the other. -/
theorem parameters_joined (link : Link) (first second : List Token) :
    parameters (lexemes (joined link.token first second)) =
      parameters (lexemes first) ++ parameters (lexemes second) := by
  have hlink : parameters link.token.lexemes = [] := by cases link <;> rfl
  -- one of the two may be empty, and then there is no link
  by_cases h₁ : first = []
  · simp [h₁]
  by_cases h₂ : second = []
  · simp [h₂]
  rw [joined_of_ne_nil _ h₁ h₂]
  simp [hlink]

/-- The placeholders of a list are its slots, in order. -/
theorem parameters_placeholders (slots : List Nat) :
    parameters (lexemes (commaSeparated (slots.map fun slot => [.placeholder slot]))) = slots := by
  induction slots with
  | nil => rfl
  | cons slot rest ih =>
    cases rest with
    | nil => rfl
    | cons next more =>
      rw [List.map_cons, List.map_cons, commaSeparated]
      rw [List.map_cons] at ih
      simp [Token.lexemes, ih]

/-- A group has the placeholders of its parts, if each of these numbers its own on from those in
use. -/
theorem parameters_groupTokens {parts : List Condition} (link : Link)
    (h : ∀ part ∈ parts, ∀ used,
      parameters (lexemes (part.tokens used)) = List.range' (used + 1) part.terms.length)
    (used : Nat) :
    parameters (lexemes (groupTokens link used parts)) =
      List.range' (used + 1) (termsOf parts).length := by
  induction parts generalizing used with
  | nil => rfl
  | cons part rest ih =>
    have hpart := h part List.mem_cons_self used
    -- the parts after the first one number theirs on from the last of it
    have hrest := ih (fun c hc => h c (List.mem_cons_of_mem _ hc)) (used + part.terms.length)
    rw [groupTokens, parameters_joined, parameters_enclosed, hpart, hrest, termsOf,
      List.length_append, Nat.add_right_comm, List.range'_append_1]

/-- The placeholders of a condition are numbered from left to right, on from those in use, and
there are as many as terms. -/
theorem parameters_tokens (c : Condition) (used : Nat) :
    parameters (lexemes (c.tokens used)) = List.range' (used + 1) c.terms.length := by
  -- along the tree, for any number of placeholders in use before
  induction c using induction generalizing used with
  | all parts ih => exact parameters_groupTokens .and ih used
  | any parts ih => exact parameters_groupTokens .or ih used
  | not part ih =>
    rw [tokens, terms, ← ih used]
    cases hempty : (part.tokens used).isEmpty with
    | true =>
      rw [List.isEmpty_iff] at hempty
      rw [hempty]
      rfl
    | false =>
      simp only [Bool.false_eq_true, if_false, lexemes_cons, parameters_append,
        parameters_parenthesised]
      rfl
  | compare lhs comparison value =>
    have hcomparison : parameters comparison.token.lexemes = [] := by cases comparison <;> rfl
    rw [tokens, lexemes_append, parameters_append, Operand.parameters_tokens, lexemes_cons,
      parameters_append, hcomparison]
    rfl
  | nullness lhs expected =>
    cases expected <;> simp [tokens, terms, Operand.parameters_tokens, Token.lexemes]
  | inList lhs values negated =>
    rw [tokens, terms, placeholders_eq]
    cases values with
    | nil => rfl
    | cons value rest =>
      have hslots := parameters_placeholders (List.range' (used + 1) (value :: rest).length)
      rw [if_neg (by simp), lexemes_append, parameters_append, Operand.parameters_tokens]
      cases negated <;>
        simp only [lexemes_append, lexemes_cons, parameters_append, parameters_parenthesised,
          hslots] <;> rfl
  | constant b => rfl

/-! ### Leaves -/

mutual

/-- The conditions at the ends of a tree, from left to right. -/
def leaves : Condition → List Condition
  | all parts => leavesOf parts
  | any parts => leavesOf parts
  | not part => leaves part
  | leaf => [leaf]

/-- The conditions at the ends of several trees, from left to right. -/
def leavesOf : List Condition → List Condition
  | [] => []
  | part :: rest => leaves part ++ leavesOf rest

end

/-- The terms of some conditions are those of their leaves, if it is so for each of them. -/
theorem termsOf_eq_leavesOf {parts : List Condition}
    (h : ∀ part ∈ parts, part.terms = part.leaves.flatMap terms) :
    termsOf parts = (leavesOf parts).flatMap terms := by
  induction parts with
  | nil => rfl
  | cons part rest ih =>
    rw [termsOf, leavesOf, List.flatMap_append, h part List.mem_cons_self,
      ih fun c hc => h c (List.mem_cons_of_mem _ hc)]

/-- The terms of a condition are those of its leaves, in order. -/
theorem terms_eq_leaves (c : Condition) : c.terms = c.leaves.flatMap terms := by
  induction c using induction with
  | all parts ih => exact termsOf_eq_leavesOf ih
  | any parts ih => exact termsOf_eq_leavesOf ih
  | not part ih => exact ih
  | compare | nullness | inList | constant => simp [leaves]

end Condition

end Listing.Sql
