import Listing.Proofs.Sql.Condition

namespace Listing.Sql

/-!
# Spacing

The text of tokens that stand side by side, from the texts of either side.

* `text_append` — the two texts with what stands between the tokens at the seam;
* `Loose` — tokens that cling to nothing after them, with `Condition.loose_tokens`;
* `Detached` — tokens that cling to nothing before them, with `Condition.detached_tokens`;
* `text_append_keyword` — a word after loose tokens stands after a blank.
-/

/-- What is written between two tokens. -/
def gap (t u : Token) : String := if t.clingsToNext || u.clingsToLast then "" else " "

/-- A token that clings to the last one has no gap before it. -/
theorem gap_of_clingsToLast (t : Token) {u : Token} (h : u.clingsToLast = true) : gap t u = "" := by
  rw [gap, h, Bool.or_true, if_pos rfl]

/-- A token, the gap after it, and the text of the others. -/
theorem text_cons_cons (t u : Token) (us : List Token) :
    text (t :: u :: us) = t.text ++ (gap t u ++ text (u :: us)) := by
  rw [text, gap]
  split
  · rw [String.empty_append]
  · rw [String.append_assoc]

/-- The text of two lists of tokens is made of their texts. -/
theorem text_append {ts us : List Token} (hts : ts ≠ []) (hus : us ≠ []) :
    text (ts ++ us) = text ts ++ (gap (ts.getLast hts) (us.head hus) ++ text us) := by
  induction ts with
  | nil => exact absurd rfl hts
  | cons t ts ih =>
    -- the seam is reached where one token is left on its left
    cases ts with
    | nil =>
      obtain ⟨u, us, rfl⟩ := List.exists_cons_of_ne_nil hus
      exact text_cons_cons t u us
    | cons t' ts =>
      have hrest := ih (List.cons_ne_nil t' ts)
      rw [List.cons_append, List.cons_append, text_cons_cons, ← List.cons_append, hrest,
        text_cons_cons, List.getLast_cons (List.cons_ne_nil t' ts), String.append_assoc,
        String.append_assoc]

/-! ### Loose ends -/

/-- The last of the tokens clings to nothing after it. -/
def Loose (ts : List Token) : Prop := ∀ t ∈ ts.getLast?, t.clingsToNext = false

/-- No tokens cling to nothing. -/
theorem loose_nil : Loose [] := by
  intro t ht
  cases ht

/-- The end of some tokens is loose whatever stands before them. -/
theorem loose_append_of_ne_nil (ts : List Token) {us : List Token} (hus : Loose us)
    (hne : us ≠ []) : Loose (ts ++ us) := by
  intro t ht
  rw [List.getLast?_append, List.getLast?_eq_some_getLast hne, Option.some_or] at ht
  refine hus t ?_
  rwa [List.getLast?_eq_some_getLast hne]

/-- A last token that clings to nothing is a loose end. -/
theorem loose_concat (ts : List Token) {t : Token} (ht : t.clingsToNext = false) :
    Loose (ts ++ [t]) := by
  refine loose_append_of_ne_nil ts ?_ (List.cons_ne_nil t [])
  intro u hu
  cases hu
  exact ht

/-- Two loose lists of tokens make one, also if one is empty. -/
theorem loose_append {ts us : List Token} (hts : Loose ts) (hus : Loose us) : Loose (ts ++ us) := by
  by_cases hnil : us = []
  · rwa [hnil, List.append_nil]
  · exact loose_append_of_ne_nil ts hus hnil

/-- So do many of them. -/
theorem loose_flatMap {α : Type} {f : α → List Token} (h : ∀ x, Loose (f x)) (xs : List α) :
    Loose (xs.flatMap f) := by
  induction xs with
  | nil => exact loose_nil
  | cons x xs ih => exact loose_append (h x) ih

/-- A word after loose tokens stands after a blank. -/
theorem text_append_keyword {ts us : List Token} {k : Keyword} (hts : Loose ts) (hne : ts ≠ [])
    (hus : us.head? = some (.keyword k)) : text (ts ++ us) = text ts ++ (" " ++ text us) := by
  have hus' : us ≠ [] := by
    rintro rfl
    cases hus
  have hhead : us.head hus' = .keyword k := by
    rw [List.head?_eq_some_head hus', Option.some.injEq] at hus
    exact hus
  have hlast : (ts.getLast hne).clingsToNext = false :=
    hts _ (List.getLast?_eq_some_getLast hne)
  rw [text_append hne hus', hhead, gap, hlast]
  rfl

namespace Condition

/-- A closing parenthesis is a loose end. -/
theorem loose_parenthesised (ts : List Token) : Loose (parenthesised ts) :=
  loose_concat (.openParen :: ts) rfl

/-- Two linked conditions end as the second one does, or as the first one if there is no second. -/
theorem loose_joined {link : Token} {first second : List Token} (h₁ : Loose first)
    (h₂ : Loose second) : Loose (joined link first second) := by
  by_cases hfirst : first = []
  · rwa [hfirst, joined_nil_left]
  by_cases hsecond : second = []
  · rwa [hsecond, joined_nil_right]
  rw [joined_of_ne_nil link hfirst hsecond, List.append_cons]
  exact loose_append_of_ne_nil _ h₂ hsecond

/-- A group has a loose end if its parts have. -/
theorem loose_groupTokens {parts : List Condition} (link : Link)
    (h : ∀ part ∈ parts, ∀ used, Loose (part.tokens used)) (used : Nat) :
    Loose (groupTokens link used parts) :=
  groupTokens_induction loose_nil (fun ts _ => loose_parenthesised ts)
    (fun _ _ => loose_joined) h used

/-- Nothing has to cling to the end of a condition. -/
theorem loose_tokens (c : Condition) (used : Nat) : Loose (c.tokens used) := by
  induction c using induction generalizing used with
  | all parts ih => exact loose_groupTokens .and ih used
  | any parts ih => exact loose_groupTokens .or ih used
  | not part ih =>
    rw [tokens]
    cases (part.tokens used).isEmpty with
    | true => exact loose_nil
    | false => exact loose_concat (.keyword .not :: .openParen :: part.tokens used) rfl
  | compare lhs comparison value =>
    exact loose_append_of_ne_nil _ (loose_concat [comparison.token] rfl) (List.cons_ne_nil _ _)
  | nullness lhs expected =>
    rw [tokens]
    refine loose_append_of_ne_nil _ ?_ (List.cons_ne_nil _ _)
    exact loose_concat (.keyword .is :: if expected then [] else [.keyword .not]) rfl
  | inList lhs values negated =>
    rw [tokens]
    split
    · exact loose_concat [] rfl
    · refine loose_append_of_ne_nil _ (loose_append_of_ne_nil _ ?_ (List.cons_ne_nil _ _)) (by simp)
      exact loose_concat (.keyword .in_ :: .openParen :: placeholders used values.length) rfl
  | constant b => exact loose_concat [] rfl

end Condition

/-! ### Detached starts -/

/-- The first of the tokens clings to nothing before it. -/
def Detached (ts : List Token) : Prop := ∀ t ∈ ts.head?, t.clingsToLast = false

/-- No tokens cling to nothing before them. -/
theorem detached_nil : Detached [] := by
  intro t ht
  cases ht

/-- A first token that clings to nothing is a detached start. -/
theorem detached_cons {t : Token} (h : t.clingsToLast = false) (ts : List Token) :
    Detached (t :: ts) := by
  intro u hu
  cases hu
  exact h

/-- The start of some tokens is that of its first part, if this is not empty. -/
theorem detached_append {ts : List Token} (us : List Token) (h : Detached ts) (hne : ts ≠ []) :
    Detached (ts ++ us) := by
  obtain ⟨t, ts, rfl⟩ := List.exists_cons_of_ne_nil hne
  exact detached_cons (h t rfl) (ts ++ us)

/-- Detached tokens stand after a blank, if a word stands before them. -/
theorem text_keyword_cons (k : Keyword) {ts : List Token} (h : Detached ts) (hne : ts ≠ []) :
    text (.keyword k :: ts) = k.text ++ (" " ++ text ts) := by
  obtain ⟨t, ts, rfl⟩ := List.exists_cons_of_ne_nil hne
  rw [text_cons_cons, gap, h t rfl]
  rfl

/-- An operand is always written. -/
theorem Operand.tokens_ne_nil (x : Operand) : x.tokens ≠ [] := by
  cases x <;> exact List.cons_ne_nil _ _

/-- An operand starts with an alias or a function, which stand by themselves. -/
theorem Operand.detached_tokens (x : Operand) (rest : List Token) :
    Detached (x.tokens ++ rest) := by
  refine detached_append rest ?_ x.tokens_ne_nil
  cases x <;> exact detached_cons rfl _

namespace Condition

/-- Two linked conditions start as the first one does, or as the second one if there is no first. -/
theorem detached_joined {link : Token} {first second : List Token} (h₁ : Detached first)
    (h₂ : Detached second) : Detached (joined link first second) := by
  by_cases hfirst : first = []
  · rwa [hfirst, joined_nil_left]
  by_cases hsecond : second = []
  · rwa [hsecond, joined_nil_right]
  rw [joined_of_ne_nil link hfirst hsecond]
  exact detached_append _ h₁ hfirst

/-- A group has a detached start if its parts have. -/
theorem detached_groupTokens {parts : List Condition} (link : Link)
    (h : ∀ part ∈ parts, ∀ used, Detached (part.tokens used)) (used : Nat) :
    Detached (groupTokens link used parts) :=
  groupTokens_induction detached_nil (fun _ _ => detached_cons rfl _)
    (fun _ _ => detached_joined) h used

/-- The start of a condition clings to nothing before it. -/
theorem detached_tokens (c : Condition) (used : Nat) : Detached (c.tokens used) := by
  induction c using induction generalizing used with
  | all parts ih => exact detached_groupTokens .and ih used
  | any parts ih => exact detached_groupTokens .or ih used
  | not part ih =>
    rw [tokens]
    cases (part.tokens used).isEmpty with
    | true => exact detached_nil
    | false => exact detached_cons rfl _
  | compare lhs comparison value => exact lhs.detached_tokens _
  | nullness lhs expected => exact lhs.detached_tokens _
  | inList lhs values negated =>
    rw [tokens]
    split
    · exact detached_cons rfl _
    · exact lhs.detached_tokens _
  | constant b => exact detached_cons rfl _

end Condition

end Listing.Sql
