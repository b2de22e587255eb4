import Listing.Sql.Condition

namespace Listing.Sql.Condition

/-!
# Conditions as trees

* `induction` — induction over conditions, with the hypothesis for every part of a group;
* `isEmpty_all`, `isEmpty_any`, `isEmpty_group_of_mem` — a group is empty exactly if all its parts
  are;
* `terms_eq_nil` — empty conditions bind nothing;
* `groupTokens_induction` — what holds of the tokens of a group, from what holds of its parts;
* `tokens_eq_nil_iff` — exactly the empty conditions write nothing.
-/

/-- Induction over conditions, with the hypothesis for every part of a group. -/
@[elab_as_elim]
theorem induction {P : Condition → Prop}
    (all : ∀ parts, (∀ part ∈ parts, P part) → P (all parts))
    (any : ∀ parts, (∀ part ∈ parts, P part) → P (any parts))
    (not : ∀ part, P part → P (not part))
    (compare : ∀ lhs comparison value, P (compare lhs comparison value))
    (nullness : ∀ lhs expected, P (nullness lhs expected))
    (inList : ∀ lhs values negated, P (inList lhs values negated))
    (constant : ∀ b, P (constant b)) (c : Condition) : P c :=
  match c with
  | .all parts =>
    all parts fun part _ => induction all any not compare nullness inList constant part
  | .any parts =>
    any parts fun part _ => induction all any not compare nullness inList constant part
  | .not part => not part (induction all any not compare nullness inList constant part)
  | .compare lhs comparison value => compare lhs comparison value
  | .nullness lhs expected => nullness lhs expected
  | .inList lhs values negated => inList lhs values negated
  | .constant b => constant b

/-! ### Empty conditions -/

/-- A list of parts is empty if every part is. -/
theorem areEmpty_iff {parts : List Condition} :
    areEmpty parts = true ↔ ∀ part ∈ parts, part.isEmpty = true := by
  induction parts with
  | nil => simp [areEmpty]
  | cons part rest ih => simp [areEmpty, ih]

/-- So is a conjunction. -/
theorem isEmpty_all {parts : List Condition} :
    (all parts).isEmpty = true ↔ ∀ part ∈ parts, part.isEmpty = true := areEmpty_iff

/-- So is a disjunction. -/
theorem isEmpty_any {parts : List Condition} :
    (any parts).isEmpty = true ↔ ∀ part ∈ parts, part.isEmpty = true := areEmpty_iff

/-- A group with a part that is not empty is not empty. -/
theorem isEmpty_group_of_mem {parts : List Condition} {c : Condition} (hc : c ∈ parts)
    (hne : c.isEmpty = false) : (all parts).isEmpty = false ∧ (any parts).isEmpty = false := by
  have hparts : areEmpty parts = false := by
    refine Bool.eq_false_iff.mpr fun hempty => ?_
    rw [areEmpty_iff.mp hempty c hc] at hne
    cases hne
  exact ⟨hparts, hparts⟩

/-- Parts that bind nothing bind nothing together. -/
theorem termsOf_eq_nil {parts : List Condition} (h : ∀ part ∈ parts, part.terms = []) :
    termsOf parts = [] := by
  induction parts with
  | nil => rfl
  | cons part rest ih =>
    rw [termsOf, h part List.mem_cons_self, ih fun c hc => h c (List.mem_cons_of_mem _ hc)]
    rfl

/-- A condition without an atom binds no term. -/
theorem terms_eq_nil {c : Condition} (h : c.isEmpty = true) : c.terms = [] := by
  induction c using induction with
  | all parts ih =>
    have hparts := isEmpty_all.mp h
    exact termsOf_eq_nil fun part hpart => ih part hpart (hparts part hpart)
  | any parts ih =>
    have hparts := isEmpty_any.mp h
    exact termsOf_eq_nil fun part hpart => ih part hpart (hparts part hpart)
  | not part ih => exact ih h
  | compare | nullness | inList | constant => cases h

/-! ### What a group writes -/

/-- Nothing is put before the second, and no link. -/
@[simp] theorem joined_nil_left (link : Token) (second : List Token) :
    joined link [] second = second := rfl

/-- Nothing is put after the first, and no link. -/
@[simp] theorem joined_nil_right (link : Token) (first : List Token) :
    joined link first [] = first := by
  cases first <;> rfl

/-- Between two texts stands the link. -/
theorem joined_of_ne_nil {first second : List Token} (link : Token) (h₁ : first ≠ [])
    (h₂ : second ≠ []) : joined link first second = first ++ link :: second := by
  rw [joined, if_neg (by simpa using h₁), if_neg (by simpa using h₂)]

/-- Nothing comes of nothing, on either side. -/
theorem joined_eq_nil_iff {link : Token} {first second : List Token} :
    joined link first second = [] ↔ first = [] ∧ second = [] := by
  by_cases h₁ : first = []
  · rw [h₁, joined_nil_left]
    simp
  by_cases h₂ : second = []
  · rw [h₂, joined_nil_right]
    simp
  rw [joined_of_ne_nil link h₁ h₂]
  simp [h₁]

/-- Parentheses are not put around nothing. -/
theorem enclosed_eq_nil_iff {link : Link} {part : Condition} {tokens : List Token} :
    enclosed link part tokens = [] ↔ tokens = [] := by
  unfold enclosed
  cases tokens with
  | nil => simp
  | cons t ts =>
    cases crosses link part <;> simp [parenthesised]

/-- What holds of no tokens, and is kept by parentheses and links, holds of a group if it does of
its parts. -/
theorem groupTokens_induction {P : List Token → Prop} {link : Link} {parts : List Condition}
    (nil : P []) (parenthesised : ∀ ts, P ts → P (parenthesised ts))
    (joined : ∀ first second, P first → P second → P (joined link.token first second))
    (h : ∀ part ∈ parts, ∀ used, P (part.tokens used)) (used : Nat) :
    P (groupTokens link used parts) := by
  induction parts generalizing used with
  | nil => exact nil
  | cons part rest ih =>
    have hpart := h part List.mem_cons_self used
    have hrest := ih fun c hc => h c (List.mem_cons_of_mem _ hc)
    rw [groupTokens]
    refine joined _ _ ?_ (hrest _)
    -- parentheses are put around a part only where its own link binds less
    unfold enclosed
    split
    · exact parenthesised _ hpart
    · exact hpart

/-- A group writes nothing exactly if all its parts are empty. -/
theorem groupTokens_eq_nil_iff {link : Link} {parts : List Condition}
    (h : ∀ part ∈ parts, ∀ used, part.tokens used = [] ↔ part.isEmpty = true) (used : Nat) :
    groupTokens link used parts = [] ↔ ∀ part ∈ parts, part.isEmpty = true := by
  induction parts generalizing used with
  | nil => simp [groupTokens]
  | cons part rest ih =>
    have hpart := h part List.mem_cons_self used
    have hrest := ih (fun c hc => h c (List.mem_cons_of_mem _ hc)) (used + part.terms.length)
    rw [groupTokens, joined_eq_nil_iff, enclosed_eq_nil_iff, hpart, hrest, List.forall_mem_cons]

/-- Exactly the empty conditions write nothing. -/
theorem tokens_eq_nil_iff (c : Condition) (used : Nat) :
    c.tokens used = [] ↔ c.isEmpty = true := by
  induction c using induction generalizing used with
  | all parts ih =>
    rw [tokens, isEmpty_all]
    exact groupTokens_eq_nil_iff ih used
  | any parts ih =>
    rw [tokens, isEmpty_any]
    exact groupTokens_eq_nil_iff ih used
  | not part ih =>
    rw [tokens, isEmpty, ← ih used]
    -- the negation of nothing is not written
    cases part.tokens used <;> simp
  | compare lhs comparison value => simp [tokens, isEmpty]
  | nullness lhs expected => simp [tokens, isEmpty]
  | inList lhs values negated => cases values <;> simp [tokens, isEmpty]
  | constant b => simp [tokens, isEmpty]

/-- A group writes nothing exactly if its parts are empty, with no condition on the parts. -/
theorem groupTokens_eq_nil (link : Link) (used : Nat) (parts : List Condition) :
    groupTokens link used parts = [] ↔ areEmpty parts = true := by
  rw [groupTokens_eq_nil_iff (fun part _ => tokens_eq_nil_iff part), areEmpty_iff]

end Listing.Sql.Condition
