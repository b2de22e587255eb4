import Listing.Sql.Operand
import Listing.Term.Basic

namespace Listing.Sql

/-!
# Conditions

The trees of conditions by which rows are selected.  Writing a condition gives tokens and, apart
from them, the terms that its placeholders stand for, in order.

* `Condition` — conjunctions, disjunctions, negations and the atoms below them;
* `Condition.isEmpty` — trees without an atom, which restrict nothing and write nothing;
* `Condition.terms` — the terms to bind, in the order of their placeholders;
* `Condition.tokens` — the tokens, with placeholders numbered on from a given count; of a group
  directly inside a group of the other kind, and of the body of a negation, the tokens are
  parenthesised.
-/

/-- How a column is compared with one value. -/
inductive Comparison
  | eq
  | gt
  | lt
  | gteq
  | lteq
  | like
  | ilike
  deriving DecidableEq, Repr

/-- The token of a comparison. -/
def Comparison.token : Comparison → Token
  | eq => .sign .eq
  | gt => .sign .gt
  | lt => .sign .lt
  | gteq => .sign .gteq
  | lteq => .sign .lteq
  | like => .keyword .like
  | ilike => .keyword .ilike

/-- A condition on the columns of row sources. -/
inductive Condition
  | all (parts : List Condition)
  | any (parts : List Condition)
  | not (part : Condition)
  | compare (lhs : Operand) (comparison : Comparison) (value : Term)
  | nullness (lhs : Operand) (expected : Bool)
  | inList (lhs : Operand) (values : List Term) (negated : Bool)
  | constant (b : Bool)

namespace Condition

/-! ### Building -/

/-- The column is one of the values; no values match nothing. -/
def isIn (lhs : Operand) (values : List Term) : Condition :=
  if values.isEmpty then constant false else inList lhs values false

/-- The column is none of the values; no values match everything. -/
def isNotIn (lhs : Operand) (values : List Term) : Condition :=
  if values.isEmpty then constant true else inList lhs values true

/-- The column lies between two bounds, both included. -/
def between (lhs : Operand) (low high : Term) : Condition :=
  all [compare lhs .gteq low, compare lhs .lteq high]

/-- The disjunction with one more condition; a disjunction takes it as a further part. -/
def orElse : Condition → Condition → Condition
  | any parts, other => any (parts ++ [other])
  | first, other => any [first, other]

/-! ### Writing -/

mutual

/-- Whether there is no atom in the tree. -/
def isEmpty : Condition → Bool
  | all parts => areEmpty parts
  | any parts => areEmpty parts
  | not part => isEmpty part
  | _ => false

/-- Whether there is no atom in any of the trees. -/
def areEmpty : List Condition → Bool
  | [] => true
  | part :: rest => isEmpty part && areEmpty rest

end

mutual

/-- The terms that the placeholders of the condition stand for, in order. -/
def terms : Condition → List Term
  | all parts => termsOf parts
  | any parts => termsOf parts
  | not part => terms part
  | compare _ _ value => [value]
  | nullness .. => []
  | inList _ values _ => values
  | constant _ => []

/-- The terms of several conditions, in order. -/
def termsOf : List Condition → List Term
  | [] => []
  | part :: rest => terms part ++ termsOf rest

end

/-- The kinds of group. -/
inductive Link
  | and
  | or
  deriving DecidableEq, Repr

/-- The token between the parts of a group. -/
def Link.token : Link → Token
  | .and => .keyword .and
  | .or => .keyword .or

/-- Whether the condition is a group of the other kind, which needs parentheses inside `link`. -/
def crosses (link : Link) : Condition → Bool
  | any _ => link == .and
  | all _ => link == .or
  | _ => false

/-- Tokens between parentheses. -/
def parenthesised (tokens : List Token) : List Token := .openParen :: (tokens ++ [.closeParen])

/-- The tokens of a part of a group; an empty part has none. -/
def enclosed (link : Link) (part : Condition) (tokens : List Token) : List Token :=
  if crosses link part && !tokens.isEmpty then parenthesised tokens else tokens

/-- Placeholders numbered on from `used`, with commas between them. -/
def placeholders (used count : Nat) : List Token :=
  commaSeparated ((List.range count).map fun i => [.placeholder (used + i + 1)])

mutual

/-- The tokens of a condition, when `used` placeholders stand before it. -/
def tokens (used : Nat) : Condition → List Token
  | all parts => groupTokens .and used parts
  | any parts => groupTokens .or used parts
  | not part =>
    let inner := tokens used part
    if inner.isEmpty then [] else .keyword .not :: parenthesised inner
  | compare lhs comparison _ => lhs.tokens ++ [comparison.token, .placeholder (used + 1)]
  | nullness lhs expected =>
    lhs.tokens ++ .keyword .is :: ((if expected then [] else [.keyword .not]) ++ [.keyword .null])
  | inList lhs values negated =>
    -- no list of placeholders may be empty: nothing is in it, everything is outside
    if values.isEmpty then [.truth negated]
    else
      lhs.tokens ++ ((if negated then [.keyword .not] else []) ++
        .keyword .in_ :: parenthesised (placeholders used values.length))
  | constant b => [.truth b]

/-- The tokens of the parts of a group that are not empty, with its link between them. -/
def groupTokens (link : Link) (used : Nat) : List Condition → List Token
  | [] => []
  | part :: rest =>
    -- an empty part has no terms either, so the numbering goes on as if it were not there
    joined link.token (enclosed link part (tokens used part))
      (groupTokens link (used + (terms part).length) rest)

end

/-- The text of a condition, when `used` placeholders stand before it. -/
def text (used : Nat) (c : Condition) : String := Sql.text (c.tokens used)

end Condition

end Listing.Sql
