import Listing.Proofs.Sql.Grammar
import Listing.Proofs.Sql.Placeholders

namespace Listing.Sql

/-!
# The meaning of conditions

A condition has a truth value by itself, and its text has one that a reader of SQL gives to it.

* `Condition.eval` — the truth value of a condition when its atoms have the given ones;
* `Condition.pruned` — the condition without its empty parts, which the text leaves out;
* `Reads.link_induction` — a group of either kind is read part by part;
* `Means` — a text, with the terms bound to its placeholders, is read as a formula;
* `Denotes` — what some lexemes of a text are worth under every valuation of the atoms;
* `Condition.denotes_tokens` — what is written of a condition is worth as much as the condition;
* `Condition.build_meaning` — the text keeps the meaning of the condition.
-/

namespace Condition

mutual

/-- The truth value of a condition when its atoms have the given ones. -/
def eval (v : Atom Term → Truth) : Condition → Truth
  | all parts => .conj (evals v parts)
  | any parts => .disj (evals v parts)
  | not part => (eval v part).not
  | compare lhs comparison value => v (.compare lhs comparison value)
  | nullness lhs expected => v (.nullness lhs expected)
  | inList lhs values negated =>
    -- nothing is in an empty list, whatever the row
    if values.isEmpty then .ofBool negated else v (.inList lhs values negated)
  | constant b => .ofBool b

/-- The truth values of several conditions. -/
def evals (v : Atom Term → Truth) : List Condition → List Truth
  | [] => []
  | part :: rest => eval v part :: evals v rest

end

mutual

/-- The condition without the empty parts of its groups. -/
def pruned : Condition → Condition
  | all parts => all (prunedParts parts)
  | any parts => any (prunedParts parts)
  | not part => not (pruned part)
  | leaf => leaf

/-- The parts of a group that are not empty, each without its own empty parts. -/
def prunedParts : List Condition → List Condition
  | [] => []
  | part :: rest => if part.isEmpty then prunedParts rest else pruned part :: prunedParts rest

end

/-- How tightly the text of a condition holds together. -/
def level : Condition → Level
  | all _ => .conjunction
  | any _ => .disjunction
  | _ => .factor

/-- How tightly the text of a group holds together. -/
def Link.level : Link → Level
  | .and => .conjunction
  | .or => .disjunction

/-- How tightly the parts that a link stands between hold together. -/
def Link.part : Link → Level
  | .and => .factor
  | .or => .conjunction

/-- The truth value of two conditions with a link between them. -/
def Link.value : Link → Truth → Truth → Truth
  | .and => Truth.and
  | .or => Truth.or

/-- The truth value of a group. -/
def Link.fold : Link → List Truth → Truth
  | .and => Truth.conj
  | .or => Truth.disj

/-- A link puts the first value before what it makes of the rest. -/
@[simp] theorem Link.fold_cons (link : Link) (t : Truth) (ts : List Truth) :
    link.fold (t :: ts) = link.value t (link.fold ts) := by
  cases link <;> rfl

/-- What a link makes of nothing is neutral for it. -/
@[simp] theorem Link.value_fold_nil (link : Link) (t : Truth) :
    link.value t (link.fold []) = t := by
  cases link
  · exact Truth.and_yes t
  · exact Truth.or_no t

/-- A link is associative. -/
theorem Link.value_assoc (link : Link) (a b c : Truth) :
    link.value (link.value a b) c = link.value a (link.value b c) := by
  cases link
  · exact Truth.and_assoc a b c
  · exact Truth.or_assoc a b c

end Condition

/-- Linked formulas have the truth value of the link. -/
theorem Formula.eval_linked (link : Condition.Link) (f g : Formula Term) (v : Atom Term → Truth) :
    (linked link f g).eval v = link.value (f.eval v) (g.eval v) := by
  cases link <;> rfl

/-! ### Linked parts -/

namespace Reads

variable {link : Condition.Link} {ts us : List Lexeme} {f g : Formula Nat}

/-- A part goes before a group. -/
theorem linked (hf : Reads link.part ts f) (hg : Reads link.level us g) :
    Reads link.level (ts ++ (link.token.lexemes ++ us)) (.linked link f g) := by
  cases link with
  | and => exact .and hf hg
  | or => exact .or hf hg

/-- What holds of each part, and of a part before a group that it holds of, holds of a group. -/
@[elab_as_elim]
theorem link_induction {P : List Lexeme → Formula Nat → Prop} (h : Reads link.level ts f)
    (single : ∀ ts f, Reads link.part ts f → P ts f)
    (more : ∀ ts us f g, Reads link.part ts f → Reads link.level us g → P us g →
      P (ts ++ (link.token.lexemes ++ us)) (.linked link f g)) : P ts f := by
  generalize hlevel : link.level = level at h
  -- each link has two of the rules of the grammar, and the other ones are of other levels
  induction h with
  | atom | constant | not | group => cases link <;> cases hlevel
  | factor h _ =>
    cases link with
    | and => exact single _ _ h
    | or => cases hlevel
  | and hf hg _ ih =>
    cases link with
    | and => exact more _ _ _ _ hf hg (ih rfl)
    | or => cases hlevel
  | conjunction h _ =>
    cases link with
    | and => cases hlevel
    | or => exact single _ _ h
  | or hf hg _ ih =>
    cases link with
    | and => cases hlevel
    | or => exact more _ _ _ _ hf hg (ih rfl)

end Reads

/-- A text, with the terms bound to its placeholders, is read as a formula. -/
def Means (text : String) (terms : List Term) (f : Formula Term) : Prop :=
  ∃ ls g, lex text.toList = some ls ∧ Reads .disjunction ls g ∧ g.bound terms = some f

/-- A text is read as one formula at most. -/
theorem Means.unique {text : String} {terms : List Term} {f g : Formula Term}
    (hf : Means text terms f) (hg : Means text terms g) : f = g := by
  obtain ⟨ls, f', hls, hread, hbound⟩ := hf
  obtain ⟨ms, g', hms, hread', hbound'⟩ := hg
  rw [hls, Option.some.injEq] at hms
  subst hms
  cases hread.unique hread'
  rw [hbound, Option.some.injEq] at hbound'
  exact hbound'

/-- Some lexemes are read as a formula that, with the terms bound to its placeholders, has the given
truth value under every valuation of the atoms. -/
def Denotes (level : Level) (ls : List Lexeme) (terms : List Term)
    (value : (Atom Term → Truth) → Truth) : Prop :=
  ∃ f g, Reads level ls f ∧ f.bound terms = some g ∧ ∀ v, g.eval v = value v

namespace Denotes

variable {terms : List Term} {ls ms : List Lexeme} {value value' : (Atom Term → Truth) → Truth}

/-- An atom denotes its value, with the terms at its places. -/
theorem atom {a : Atom Nat} {b : Atom Term} (ha : a.Listed) (hb : a.bound terms = some b) :
    Denotes .factor (lexemes a.tokens) terms fun v => v b := by
  refine ⟨.atom a, .atom b, .atom a ha, ?_, fun _ => rfl⟩
  rw [Formula.bound, hb]
  rfl

/-- A truth value denotes itself. -/
theorem constant (b : Bool) :
    Denotes .factor (Token.truth b).lexemes terms fun _ => .ofBool b :=
  ⟨.constant b, .constant b, .constant b, rfl, fun _ => rfl⟩

/-- A negated factor denotes the negation. -/
theorem not (h : Denotes .factor ls terms value) :
    Denotes .factor (.word "NOT" :: ls) terms fun v => (value v).not := by
  obtain ⟨f, g, hread, hbound, heval⟩ := h
  refine ⟨.not f, .not g, .not hread, ?_, ?_⟩
  · rw [Formula.bound, hbound]
    rfl
  · intro v
    rw [Formula.eval, heval]

/-- Parentheses leave the value as it is. -/
theorem group (h : Denotes .disjunction ls terms value) :
    Denotes .factor (.sign "(" :: (ls ++ [.sign ")"])) terms value := by
  obtain ⟨f, g, hread, hbound, heval⟩ := h
  exact ⟨f, g, .group hread, hbound, heval⟩

/-- A factor may stand for a condition of any kind. -/
theorem of_factor (h : Denotes .factor ls terms value) (level : Level) :
    Denotes level ls terms value := by
  obtain ⟨f, g, hread, hbound, heval⟩ := h
  cases level with
  | factor => exact ⟨f, g, hread, hbound, heval⟩
  | conjunction => exact ⟨f, g, .factor hread, hbound, heval⟩
  | disjunction => exact ⟨f, g, .conjunction (.factor hread), hbound, heval⟩

/-- A condition of any kind may stand for a disjunction. -/
theorem disjunction {level : Level} (h : Denotes level ls terms value) :
    Denotes .disjunction ls terms value := by
  obtain ⟨f, g, hread, hbound, heval⟩ := h
  cases level with
  | factor => exact ⟨f, g, .conjunction (.factor hread), hbound, heval⟩
  | conjunction => exact ⟨f, g, .conjunction hread, hbound, heval⟩
  | disjunction => exact ⟨f, g, hread, hbound, heval⟩

/-- Two groups of a kind make one: the second goes on where the first one ends. -/
theorem linked (link : Condition.Link) (h : Denotes link.level ls terms value)
    (h' : Denotes link.level ms terms value') :
    Denotes link.level (ls ++ (link.token.lexemes ++ ms)) terms
      fun v => link.value (value v) (value' v) := by
  obtain ⟨f, f', hread, hbound, heval⟩ := h
  obtain ⟨g, g', hread', hbound', heval'⟩ := h'
  -- the formula leans to the right, so the second group goes below the last part of the first
  suffices hwhole : ∀ f', f.bound terms = some f' →
      ∃ h h', Reads link.level (ls ++ (link.token.lexemes ++ ms)) h ∧ h.bound terms = some h' ∧
        ∀ v, h'.eval v = link.value (f'.eval v) (g'.eval v) by
    obtain ⟨h, h', hreads, hbounds, hevals⟩ := hwhole f' hbound
    exact ⟨h, h', hreads, hbounds, fun v => by rw [hevals, heval, heval']⟩
  refine Reads.link_induction hread ?_ ?_
  · intro ls f hf f' hbound
    exact ⟨.linked link f g, .linked link f' g', hf.linked hread',
      (Formula.bound_linked link).mpr ⟨f', g', hbound, hbound', rfl⟩,
      Formula.eval_linked link f' g'⟩
  · intro ts us f₁ f₂ hf₁ _ ih f' hbound
    obtain ⟨f₁', f₂', hbound₁, hbound₂, rfl⟩ := (Formula.bound_linked link).mp hbound
    obtain ⟨h, h', hreads, hbounds, hevals⟩ := ih f₂' hbound₂
    rw [List.append_assoc, List.append_assoc]
    refine ⟨.linked link f₁ h, .linked link f₁' h', hf₁.linked hreads,
      (Formula.bound_linked link).mpr ⟨f₁', h', hbound₁, hbounds, rfl⟩, fun v => ?_⟩
    rw [Formula.eval_linked, Formula.eval_linked, hevals, Condition.Link.value_assoc]

end Denotes

/-! ### The terms of placeholders -/

/-- What follows some terms of a list stands as many places further on. -/
theorem prefix_drop_right (xs : List Term) {ys terms : List Term} {used : Nat}
    (h : xs ++ ys <+: terms.drop used) : ys <+: terms.drop (used + xs.length) := by
  obtain ⟨after, hafter⟩ := h
  have hsame : terms.drop (used + xs.length) = ys ++ after := by
    calc terms.drop (used + xs.length) = (terms.drop used).drop xs.length := List.drop_drop.symm
      _ = (xs ++ (ys ++ after)).drop xs.length := by rw [← hafter, List.append_assoc]
      _ = ys ++ after := List.drop_left
  rw [hsame]
  exact List.prefix_append ys after

namespace Atom

/-- The placeholder after those in use stands for the next term. -/
theorem termAt_succ {value : Term} {rest terms : List Term} {used : Nat}
    (h : value :: rest <+: terms.drop used) : termAt terms (used + 1) = some value := by
  obtain ⟨after, hafter⟩ := h
  have hfirst : (terms.drop used)[0]? = some value := by
    rw [← hafter]
    rfl
  rwa [List.getElem?_drop, Nat.add_zero] at hfirst

/-- Placeholders in a row stand for the terms from there on. -/
theorem termsAt_range' {values terms : List Term} {used : Nat}
    (h : values <+: terms.drop used) :
    termsAt terms (List.range' (used + 1) values.length) = some values := by
  induction values generalizing used with
  | nil => rfl
  | cons value rest ih =>
    have hrest : rest <+: terms.drop (used + 1) := prefix_drop_right [value] h
    rw [List.length_cons, List.range'_succ, termsAt, termAt_succ h, ih hrest]

end Atom

namespace Condition

/-! ### What is written of a condition -/

/-- Nothing is left of empty parts. -/
theorem prunedParts_eq_nil {parts : List Condition} (h : areEmpty parts = true) :
    prunedParts parts = [] := by
  induction parts with
  | nil => rfl
  | cons part rest ih =>
    rw [areEmpty, Bool.and_eq_true] at h
    rw [prunedParts, if_pos h.1, ih h.2]

/-- A part that needs no parentheses is a factor, or a group of the same kind. -/
theorem level_of_not_crosses {link : Link} {part : Condition} (h : crosses link part = false) :
    part.level = .factor ∨ part.level = link.level := by
  cases part with
  | all parts =>
    cases link with
    | and => exact .inr rfl
    | or => cases h
  | any parts =>
    cases link with
    | and => cases h
    | or => exact .inr rfl
  | _ => exact .inl rfl

/-- A part of a group holds together as tightly as the group, where needed by parentheses. -/
theorem denotes_enclosed (link : Link) {part : Condition} {ts : List Token} {terms : List Term}
    {value : (Atom Term → Truth) → Truth} (hne : ts ≠ [])
    (h : Denotes part.level (lexemes ts) terms value) :
    Denotes link.level (lexemes (enclosed link part ts)) terms value := by
  have hfull : ts.isEmpty = false := by simpa using hne
  rw [enclosed, hfull, Bool.not_false, Bool.and_true]
  -- parentheses make any part a factor, and without them the part is of the level of the link
  cases hcrosses : crosses link part with
  | true =>
    have hgroup : Denotes .factor (lexemes (parenthesised ts)) terms value := by
      have hbody := h.disjunction.group
      simpa [parenthesised, Token.lexemes] using hbody
    rw [if_pos rfl]
    exact hgroup.of_factor _
  | false =>
    rw [if_neg Bool.false_ne_true]
    rcases level_of_not_crosses hcrosses with hfactor | hsame
    · rw [hfactor] at h
      exact h.of_factor _
    · rwa [hsame] at h

/-- What is written of a group, if what is written of each part is worth as much as the part. -/
theorem denotes_groupTokens {parts : List Condition} {terms : List Term} (link : Link)
    (h : ∀ part ∈ parts, ∀ used, part.isEmpty = false → part.terms <+: terms.drop used →
      Denotes part.level (lexemes (part.tokens used)) terms fun v => part.pruned.eval v)
    (used : Nat) (hne : areEmpty parts = false) (hterms : termsOf parts <+: terms.drop used) :
    Denotes link.level (lexemes (groupTokens link used parts)) terms
      fun v => link.fold (evals v (prunedParts parts)) := by
  induction parts generalizing used with
  | nil => cases hne
  | cons part rest ih =>
    have hrest := ih fun c hc => h c (List.mem_cons_of_mem _ hc)
    rw [groupTokens, prunedParts]
    rw [termsOf] at hterms
    cases hpart : part.isEmpty with
    | true =>
      have htokens : part.tokens used = [] := (tokens_eq_nil_iff part used).mpr hpart
      have hnone : part.terms = [] := terms_eq_nil hpart
      rw [areEmpty, hpart, Bool.true_and] at hne
      rw [hnone, List.nil_append] at hterms
      rw [htokens, hnone, enclosed, if_neg (by simp), joined_nil_left]
      exact hrest _ hne hterms
    | false =>
      have htokens : part.tokens used ≠ [] := by
        rw [ne_eq, tokens_eq_nil_iff, hpart]
        exact Bool.false_ne_true
      have hfirst := denotes_enclosed link htokens
        (h part List.mem_cons_self used hpart ((List.prefix_append _ _).trans hterms))
      cases hempty : areEmpty rest with
      | true =>
        -- the part stands alone
        have hnone := (groupTokens_eq_nil link (used + part.terms.length) rest).mpr hempty
        rw [hnone, joined_nil_right, if_neg Bool.false_ne_true, prunedParts_eq_nil hempty]
        simpa [evals] using hfirst
      | false =>
        have hsome : groupTokens link (used + part.terms.length) rest ≠ [] := by
          rw [ne_eq, groupTokens_eq_nil, hempty]
          exact Bool.false_ne_true
        have hwhole := hfirst.linked link (hrest _ hempty (prefix_drop_right part.terms hterms))
        rw [joined_of_ne_nil _ (by rwa [ne_eq, enclosed_eq_nil_iff]) hsome, lexemes_append,
          lexemes_cons, if_neg Bool.false_ne_true]
        simpa [evals] using hwhole

/-- What is written of a condition that is not empty is worth as much as the condition, when its
terms are bound to the placeholders from `used` on. -/
theorem denotes_tokens (c : Condition) {terms : List Term} (used : Nat) (hne : c.isEmpty = false)
    (hterms : c.terms <+: terms.drop used) :
    Denotes c.level (lexemes (c.tokens used)) terms fun v => c.pruned.eval v := by
  induction c using induction generalizing used with
  | all parts ih => exact denotes_groupTokens .and ih used hne hterms
  | any parts ih => exact denotes_groupTokens .or ih used hne hterms
  | not part ih =>
    have hbody : Denotes .factor (lexemes (.keyword .not :: parenthesised (part.tokens used))) terms
        fun v => (part.pruned.eval v).not := by
      simpa [parenthesised, Token.lexemes, Keyword.text] using
        (ih used hne hterms).disjunction.group.not
    have htokens : ¬(part.tokens used).isEmpty = true := by
      rw [List.isEmpty_iff, tokens_eq_nil_iff]
      exact fun h => Bool.noConfusion (hne.symm.trans h)
    rw [tokens]
    simp only [if_neg htokens]
    exact hbody
  | compare lhs comparison value =>
    refine Denotes.atom (a := .compare lhs comparison (used + 1)) trivial ?_
    rw [Atom.bound, Atom.termAt_succ hterms]
    rfl
  | nullness lhs expected => exact Denotes.atom (a := .nullness lhs expected) trivial rfl
  | inList lhs values negated =>
    rw [tokens, placeholders_eq]
    -- no value to compare with makes the condition a truth value
    cases values with
    | nil => exact Denotes.constant negated
    | cons value rest =>
      rw [if_neg (by simp)]
      refine Denotes.atom (a := .inList lhs (List.range' (used + 1) (value :: rest).length) negated)
        (by simp [Atom.Listed]) ?_
      have hslots : Atom.termsAt terms (List.range' (used + 1) (value :: rest).length) =
          some (value :: rest) := Atom.termsAt_range' hterms
      rw [Atom.bound, hslots]
      rfl
  | constant b => exact Denotes.constant b

/-! ### The text of a condition -/

/-- The text is empty exactly for an empty condition. -/
theorem text_eq_empty_iff {c : Condition} (h : c.Resolved) (used : Nat) :
    c.text used = "" ↔ c.isEmpty = true := by
  rw [← tokens_eq_nil_iff c used]
  constructor
  · intro htext
    -- tokens cannot be told from an empty text by their number, so the text is read
    have hread := lex_condition h used
    rw [htext, String.toList_empty, lex_nil, Option.some.injEq] at hread
    cases htokens : c.tokens used with
    | nil => rfl
    | cons t ts =>
      rw [htokens, lexemes_cons] at hread
      exact absurd (List.append_eq_nil_iff.mp hread.symm).1 t.lexemes_ne_nil
  · intro htokens
    exact congrArg Sql.text htokens

/-- The text of a condition, with its terms after those that were bound before, is read as a formula
that is worth as much as the condition without its empty parts. -/
theorem means_text {c : Condition} (h : c.Resolved) (hne : c.isEmpty = false) (bound : List Term) :
    ∃ f, Means (c.text bound.length) (bound ++ c.terms) f ∧ ∀ v, f.eval v = c.pruned.eval v := by
  have hterms : c.terms <+: (bound ++ c.terms).drop bound.length :=
    ⟨[], by rw [List.append_nil, List.drop_left]⟩
  obtain ⟨g, f, hread, hbound, heval⟩ :=
    (denotes_tokens c bound.length hne hterms).disjunction
  exact ⟨f, ⟨_, g, lex_condition h _, hread, hbound⟩, heval⟩

/-- **Writing keeps the meaning.** Only an empty condition (`Condition.isEmpty`) has an empty text
from `Condition.build`, and it binds nothing.  The text of any other is read as one formula
(`Means`), which is worth as much as the condition without its empty parts (`Condition.pruned`),
whatever the truth values of the atoms. -/
theorem build_meaning {c : Condition} (h : c.Resolved) (bound : List Term) :
    ((c.build bound).1 = "" ↔ c.isEmpty = true) ∧
      (c.isEmpty = true → (c.build bound).2 = bound) ∧
      (c.isEmpty = false → ∃ f, Means (c.build bound).1 (c.build bound).2 f ∧
        (∀ g, Means (c.build bound).1 (c.build bound).2 g → g = f) ∧
        ∀ v, f.eval v = c.pruned.eval v) := by
  rw [build_eq]
  refine ⟨text_eq_empty_iff h _, ?_, ?_⟩
  · intro hempty
    show bound ++ c.terms = bound
    rw [terms_eq_nil hempty, List.append_nil]
  · intro hne
    obtain ⟨f, hmeans, heval⟩ := means_text h hne bound
    exact ⟨f, hmeans, fun g hg => hg.unique hmeans, heval⟩

/-- The parts that write nothing leave no trace, and the disjunction gets its parentheses. -/
theorem build_meaning_mixed :
    ∃ f, Means "(p0.name = $2 OR p0.name IS NULL) AND NOT (p0.name > $3)"
        [.bool true, .text "a", .text "b"] f ∧
      ∀ v, f.eval v =
        ((v (.compare (.column ⟨'p', 0⟩ (.bare "name")) .eq (.text "a"))).or
          (v (.nullness (.column ⟨'p', 0⟩ (.bare "name")) true))).and
        (v (.compare (.column ⟨'p', 0⟩ (.bare "name")) .gt (.text "b"))).not := by
  let name : Operand := .column ⟨'p', 0⟩ (.bare "name")
  let c : Condition := all [any [compare name .eq (.text "a"), all [], nullness name true], any [],
    not (compare name .gt (.text "b"))]
  have hname : name.Resolved := ⟨⟨"products", 0, by decide⟩, ⟨"name", rfl⟩⟩
  have hc : c.Resolved := by
    intro x hx
    -- all operands are the one column
    have : x = name := by simpa [c, operands, operandsOf] using hx
    rw [this]
    exact hname
  obtain ⟨f, hmeans, _, heval⟩ := (build_meaning hc [.bool true]).2.2 rfl
  have htext : (c.build [.bool true]).1 =
      "(p0.name = $2 OR p0.name IS NULL) AND NOT (p0.name > $3)" := by decide +kernel
  refine ⟨f, htext ▸ hmeans, ?_⟩
  intro v
  rw [heval]
  simp [c, pruned, prunedParts, isEmpty, areEmpty, eval, evals, name]

end Condition

end Listing.Sql
