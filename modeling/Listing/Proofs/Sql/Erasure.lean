import Listing.Proofs.Sql.Condition

namespace Listing.Sql.Condition

/-!
# Conditions without their terms

* `erased` — a condition in which every term is replaced by null; lists keep their lengths;
* `tokens_erased` — what is written of a condition does not depend on its terms.
-/

mutual

/-- The condition with every term replaced by null. -/
def erased : Condition → Condition
  | all parts => all (erasedParts parts)
  | any parts => any (erasedParts parts)
  | not part => not (erased part)
  | compare lhs comparison _ => compare lhs comparison .null
  | inList lhs values negated => inList lhs (values.map fun _ => .null) negated
  | leaf => leaf

/-- Several conditions with every term replaced by null. -/
def erasedParts : List Condition → List Condition
  | [] => []
  | part :: rest => erased part :: erasedParts rest

end

/-- Parts are erased one by one. -/
theorem erasedParts_eq_map (parts : List Condition) : erasedParts parts = parts.map erased := by
  induction parts with
  | nil => rfl
  | cons part rest ih => rw [erasedParts, ih, List.map_cons]

/-! ### Writing -/

/-- Parentheses do not depend on the terms. -/
theorem crosses_erased (link : Link) (c : Condition) : crosses link c.erased = crosses link c := by
  cases c <;> rfl

/-- Erased parts bind as many terms as the parts. -/
theorem length_termsOf_erasedParts {parts : List Condition}
    (h : ∀ part ∈ parts, part.erased.terms.length = part.terms.length) :
    (termsOf (erasedParts parts)).length = (termsOf parts).length := by
  induction parts with
  | nil => rfl
  | cons part rest ih =>
    rw [erasedParts, termsOf, termsOf, List.length_append, List.length_append,
      h part List.mem_cons_self, ih fun c hc => h c (List.mem_cons_of_mem _ hc)]

/-- There are as many terms to bind as before. -/
theorem length_terms_erased (c : Condition) : c.erased.terms.length = c.terms.length := by
  induction c using induction with
  | all parts ih => exact length_termsOf_erasedParts ih
  | any parts ih => exact length_termsOf_erasedParts ih
  | not part ih => exact ih
  | inList lhs values negated => exact List.length_map _
  | compare | nullness | constant => rfl

/-- A group is written alike if its parts are. -/
theorem groupTokens_erasedParts {parts : List Condition} (link : Link)
    (h : ∀ part ∈ parts, ∀ used, part.erased.tokens used = part.tokens used) (used : Nat) :
    groupTokens link used (erasedParts parts) = groupTokens link used parts := by
  induction parts generalizing used with
  | nil => rfl
  | cons part rest ih =>
    rw [erasedParts, groupTokens, groupTokens, h part List.mem_cons_self, length_terms_erased,
      ih (fun c hc => h c (List.mem_cons_of_mem _ hc)), enclosed, enclosed, crosses_erased]

/-- What is written of a condition does not depend on its terms. -/
theorem tokens_erased (c : Condition) (used : Nat) : c.erased.tokens used = c.tokens used := by
  induction c using induction generalizing used with
  | all parts ih => exact groupTokens_erasedParts .and ih used
  | any parts ih => exact groupTokens_erasedParts .or ih used
  | not part ih => rw [erased, tokens, tokens, ih]
  | inList lhs values negated => rw [erased, tokens, tokens, List.isEmpty_map, List.length_map]
  | compare | nullness | constant => rfl

/-! ### Building -/

/-- An alternative is erased with the condition that it is an alternative to. -/
theorem erased_orElse (c d : Condition) : (c.orElse d).erased = c.erased.orElse d.erased := by
  cases c with
  | any parts =>
    show any (erasedParts (parts ++ [d])) = any (erasedParts parts ++ [d.erased])
    rw [erasedParts_eq_map, erasedParts_eq_map, List.map_append]
    rfl
  | _ => rfl

end Listing.Sql.Condition
