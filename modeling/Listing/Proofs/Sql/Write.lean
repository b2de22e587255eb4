import Listing.Proofs.Sql.Condition

namespace Listing.Sql.Condition

/-!
# Writing with a list of terms

A condition can be written in one pass with a list of terms that grows on the way: a value is put at
the end of the list, and its placeholder is the length that the list then has.

* `write` — the tokens of a condition in one pass;
* `build` — its text, with the list of terms after it;
* `write_eq` — the pass gives the tokens numbered by position, and puts the terms of the condition
  after those that were in the list.
-/

/-- Puts a term at the end of the list, and gives the number of its placeholder. -/
def push (value : Term) : StateM (List Term) Nat := fun bound =>
  (bound.length + 1, bound ++ [value])

/-- Puts several terms at the end of the list, in order. -/
def pushAll : List Term → StateM (List Term) (List Nat)
  | [] => return []
  | value :: rest => do
    let slot ← push value
    let slots ← pushAll rest
    return slot :: slots

/-- The pieces that a group has written, with its link between those that are not empty. -/
def linked (link : Link) (pieces : List (List Token)) : List Token :=
  pieces.foldr (joined link.token) []

mutual

/-- The tokens of a condition; its terms go to the end of the list. -/
def write : Condition → StateM (List Term) (List Token)
  | all parts => do
    let pieces ← writeParts .and parts
    return linked .and pieces
  | any parts => do
    let pieces ← writeParts .or parts
    return linked .or pieces
  | not part => do
    let inner ← write part
    return if inner.isEmpty then [] else .keyword .not :: parenthesised inner
  | compare lhs comparison value => do
    let slot ← push value
    return lhs.tokens ++ [comparison.token, .placeholder slot]
  | nullness lhs expected =>
    return lhs.tokens ++ .keyword .is ::
      ((if expected then [] else [.keyword .not]) ++ [.keyword .null])
  | inList lhs values negated =>
    if values.isEmpty then return [.truth negated]
    else do
      let slots ← pushAll values
      return lhs.tokens ++ ((if negated then [.keyword .not] else []) ++ .keyword .in_ ::
        parenthesised (commaSeparated (slots.map fun slot => [.placeholder slot])))
  | constant b => return [.truth b]

/-- The pieces of a group, one for each part that is not empty. -/
def writeParts (link : Link) : List Condition → StateM (List Term) (List (List Token))
  | [] => return []
  | part :: rest =>
    -- an empty part is left out before it is written
    if part.isEmpty then writeParts link rest
    else do
      let tokens ← write part
      let pieces ← writeParts link rest
      return enclosed link part tokens :: pieces

end

/-- The text of a condition, and the list of terms with those of the condition at its end. -/
def build (c : Condition) (bound : List Term) : String × List Term :=
  let (tokens, bound) := c.write bound
  (Sql.text tokens, bound)

/-! ### Numbering by position -/

/-- Placeholders in a row have the numbers after `used`. -/
theorem placeholders_eq (used count : Nat) :
    placeholders used count =
      commaSeparated ((List.range' (used + 1) count).map fun slot => [.placeholder slot]) := by
  have hnumbers : List.range' (used + 1) count = (List.range count).map (used + · + 1) := by
    rw [List.range'_eq_map_range]
    exact List.map_congr_left fun i _ => by omega
  rw [hnumbers, List.map_map]
  rfl

/-- Values are pushed one after the other, each at the next place. -/
theorem pushAll_eq (values bound : List Term) :
    pushAll values bound = (List.range' (bound.length + 1) values.length, bound ++ values) := by
  induction values generalizing bound with
  | nil => exact congrArg (([], ·)) (List.append_nil bound).symm
  | cons value rest ih =>
    show ((bound.length + 1) :: (pushAll rest (bound ++ [value])).1,
      (pushAll rest (bound ++ [value])).2) = _
    rw [ih]
    simp [List.range'_succ]

/-- What the parts of a group write, if each part is written as it is numbered by position. -/
theorem writeParts_eq {parts : List Condition} (link : Link)
    (h : ∀ part ∈ parts, ∀ bound,
      part.write bound = (part.tokens bound.length, bound ++ part.terms)) (bound : List Term) :
    linked link (writeParts link parts bound).1 = groupTokens link bound.length parts ∧
      (writeParts link parts bound).2 = bound ++ termsOf parts := by
  induction parts generalizing bound with
  | nil => exact ⟨rfl, (List.append_nil bound).symm⟩
  | cons part rest ih =>
    have hrest := ih fun c hc => h c (List.mem_cons_of_mem _ hc)
    rw [groupTokens, termsOf]
    -- an empty part is left out by the writer, and writes nothing as a token list
    cases hempty : part.isEmpty with
    | true =>
      have htokens : part.tokens bound.length = [] := (tokens_eq_nil_iff part _).mpr hempty
      have hterms : part.terms = [] := terms_eq_nil hempty
      rw [writeParts, if_pos hempty, htokens, hterms]
      simpa [enclosed] using hrest bound
    | false =>
      have hpart := h part List.mem_cons_self bound
      have hmore := hrest (bound ++ part.terms)
      rw [List.length_append, List.append_assoc] at hmore
      have hwrite : writeParts link (part :: rest) bound =
          (enclosed link part (part.write bound).1 :: (writeParts link rest (part.write bound).2).1,
            (writeParts link rest (part.write bound).2).2) := by
        rw [writeParts, hempty]
        rfl
      rw [hwrite, hpart]
      refine ⟨?_, hmore.2⟩
      rw [← hmore.1]
      rfl

/-- One pass gives the tokens numbered by position, and the terms at the end of the list. -/
theorem write_eq (c : Condition) (bound : List Term) :
    c.write bound = (c.tokens bound.length, bound ++ c.terms) := by
  -- along the condition, for any terms that are bound before
  induction c using induction generalizing bound with
  | all parts ih =>
    obtain ⟨htokens, hterms⟩ := writeParts_eq .and ih bound
    show (linked .and (writeParts .and parts bound).1, (writeParts .and parts bound).2) = _
    rw [htokens, hterms, tokens, terms]
  | any parts ih =>
    obtain ⟨htokens, hterms⟩ := writeParts_eq .or ih bound
    show (linked .or (writeParts .or parts bound).1, (writeParts .or parts bound).2) = _
    rw [htokens, hterms, tokens, terms]
  | not part ih =>
    show (if (part.write bound).1.isEmpty then [] else .keyword .not ::
      parenthesised (part.write bound).1, (part.write bound).2) = _
    rw [ih, tokens, terms]
  | compare lhs comparison value => rfl
  | nullness lhs expected => exact congrArg (Prod.mk _) (List.append_nil bound).symm
  | inList lhs values negated =>
    cases values with
    | nil => exact congrArg (Prod.mk _) (List.append_nil bound).symm
    | cons value rest =>
      have hslots := pushAll_eq (value :: rest) bound
      have hwrite : (inList lhs (value :: rest) negated).write bound =
          (lhs.tokens ++ ((if negated then [.keyword .not] else []) ++ .keyword .in_ ::
            parenthesised (commaSeparated ((pushAll (value :: rest) bound).1.map fun slot =>
              [.placeholder slot]))), (pushAll (value :: rest) bound).2) := rfl
      rw [hwrite, hslots, tokens, placeholders_eq]
      rfl
  | constant b => exact congrArg (Prod.mk _) (List.append_nil bound).symm

/-- The text of a condition is numbered on from the terms before it, which stay as they are. -/
theorem build_eq (c : Condition) (bound : List Term) :
    c.build bound = (c.text bound.length, bound ++ c.terms) := by
  rw [build, write_eq]
  rfl

end Listing.Sql.Condition
