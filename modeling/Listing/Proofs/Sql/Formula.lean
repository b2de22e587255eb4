import Listing.Sql.Condition

namespace Listing

/-!
# Formulas in three-valued logic

What the text of a condition says, apart from how it is written.  A comparison with a missing value
is neither true nor false, so a condition has one of three truth values.

* `Truth` — the truth values, with negation, conjunction and disjunction;
* `Truth.conj`, `Truth.disj` — the conjunction and the disjunction of a list;
* `Sql.Atom` — a condition that no other condition stands in, over terms or over placeholders;
* `Sql.Formula` — atoms under the connectives, and `Sql.Formula.eval`, its truth value;
* `Sql.Formula.bound` — a formula over placeholders with the terms that are bound to them.
-/

/-- The truth values of conditions on rows with missing values. -/
inductive Truth
  | no
  | unknown
  | yes
  deriving DecidableEq, Repr

namespace Truth

/-- The truth value of a condition that is always decided. -/
def ofBool (b : Bool) : Truth := if b then yes else no

/-- Negation; what is unknown stays unknown. -/
def not : Truth → Truth
  | no => yes
  | unknown => unknown
  | yes => no

/-- Conjunction: the lesser of two truth values. -/
def and : Truth → Truth → Truth
  | no, _ => no
  | unknown, no => no
  | unknown, _ => unknown
  | yes, t => t

/-- Disjunction: the greater of two truth values. -/
def or : Truth → Truth → Truth
  | yes, _ => yes
  | unknown, yes => yes
  | unknown, _ => unknown
  | no, t => t

/-- The conjunction of a list; of nothing, true. -/
def conj (ts : List Truth) : Truth := ts.foldr and yes

/-- The disjunction of a list; of nothing, false. -/
def disj (ts : List Truth) : Truth := ts.foldr or no

/-- Conjunction is associative. -/
theorem and_assoc (a b c : Truth) : (a.and b).and c = a.and (b.and c) := by
  cases a <;> cases b <;> cases c <;> rfl

/-- Disjunction is associative. -/
theorem or_assoc (a b c : Truth) : (a.or b).or c = a.or (b.or c) := by
  cases a <;> cases b <;> cases c <;> rfl

/-- Yes is neutral for conjunction, on the left. -/
@[simp] theorem yes_and (a : Truth) : yes.and a = a := rfl

/-- Yes is neutral for conjunction, on the right. -/
@[simp] theorem and_yes (a : Truth) : a.and yes = a := by cases a <;> rfl

/-- No is neutral for disjunction, on the left. -/
@[simp] theorem no_or (a : Truth) : no.or a = a := rfl

/-- No is neutral for disjunction, on the right. -/
@[simp] theorem or_no (a : Truth) : a.or no = a := by cases a <;> rfl

/-- A conjunction is yes only if both are. -/
theorem and_eq_yes_iff (a b : Truth) : a.and b = yes ↔ a = yes ∧ b = yes := by
  cases a <;> cases b <;> simp [and]

/-- Nothing is demanded by no values. -/
@[simp] theorem conj_nil : conj [] = yes := rfl

/-- The first value is demanded with the others. -/
@[simp] theorem conj_cons (t : Truth) (ts : List Truth) : conj (t :: ts) = t.and (conj ts) := rfl

/-- No values offer no alternative. -/
@[simp] theorem disj_nil : disj [] = no := rfl

/-- The first value is an alternative to the others. -/
@[simp] theorem disj_cons (t : Truth) (ts : List Truth) : disj (t :: ts) = t.or (disj ts) := rfl

/-- Two lists demand what they demand together. -/
theorem conj_append (ts us : List Truth) : conj (ts ++ us) = (conj ts).and (conj us) := by
  induction ts with
  | nil => rfl
  | cons t ts ih => rw [List.cons_append, conj_cons, conj_cons, ih, and_assoc]

end Truth

namespace Sql

/-! ### Atoms -/

/-- A condition that no other condition stands in.  Its values are terms, or the numbers of
placeholders. -/
inductive Atom (α : Type)
  | compare (lhs : Operand) (comparison : Comparison) (value : α)
  | nullness (lhs : Operand) (expected : Bool)
  | inList (lhs : Operand) (values : List α) (negated : Bool)

namespace Atom

/-- The term bound to a placeholder, counted from 1. -/
def termAt (terms : List Term) (slot : Nat) : Option Term :=
  -- there is no placeholder with the number 0
  match slot with
  | 0 => none
  | n + 1 => terms[n]?

/-- The terms bound to several placeholders. -/
def termsAt (terms : List Term) : List Nat → Option (List Term)
  | [] => some []
  | slot :: rest =>
    match termAt terms slot, termsAt terms rest with
    | some t, some ts => some (t :: ts)
    | _, _ => none

/-- The atom with the terms that are bound to its placeholders. -/
def bound (terms : List Term) : Atom Nat → Option (Atom Term)
  | compare lhs comparison slot => (termAt terms slot).map (compare lhs comparison)
  | nullness lhs expected => some (nullness lhs expected)
  | inList lhs slots negated => (termsAt terms slots).map fun values => inList lhs values negated

end Atom

/-! ### Formulas -/

/-- Atoms under the connectives. -/
inductive Formula (α : Type)
  | atom (a : Atom α)
  | constant (b : Bool)
  | not (f : Formula α)
  | and (f g : Formula α)
  | or (f g : Formula α)

namespace Formula

/-- The truth value of a formula when its atoms have the given ones. -/
def eval (v : Atom Term → Truth) : Formula Term → Truth
  | atom a => v a
  | constant b => .ofBool b
  | not f => (eval v f).not
  | and f g => (eval v f).and (eval v g)
  | or f g => (eval v f).or (eval v g)

/-- The formula with the terms that are bound to its placeholders, if there are enough. -/
def bound (terms : List Term) : Formula Nat → Option (Formula Term)
  | atom a => (a.bound terms).map atom
  | constant b => some (constant b)
  | not f => (bound terms f).map not
  | and f g =>
    match bound terms f, bound terms g with
    | some f, some g => some (and f g)
    | _, _ => none
  | or f g =>
    match bound terms f, bound terms g with
    | some f, some g => some (or f g)
    | _, _ => none

/-- Two formulas with a link between them. -/
def linked {α : Type} (link : Condition.Link) (f g : Formula α) : Formula α :=
  match link with
  | .and => and f g
  | .or => or f g

/-- Terms are bound to linked formulas one by one, and there have to be enough for both. -/
theorem bound_linked (link : Condition.Link) {terms : List Term} {f g : Formula Nat}
    {h : Formula Term} : (linked link f g).bound terms = some h ↔
      ∃ f' g', f.bound terms = some f' ∧ g.bound terms = some g' ∧ h = linked link f' g' := by
  -- both links bind their sides in the same way
  cases link <;> simp only [linked, bound] <;>
    cases f.bound terms <;> cases g.bound terms <;> simp [eq_comm]

end Formula

end Sql

end Listing
