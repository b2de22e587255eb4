import Listing.Field.Template
import Listing.Sql.Token

namespace Listing.Sql

/-!
# Operands

The expressions that conditions and orderings are about: a column of a row source, or a template
over columns.

* `Operand` — an expression; a column's name is always an identifier;
* `Operand.ofTemplate?` — a template applied to as many columns as it takes;
* `Operand.tokens`, `Operand.text` — the expression as it stands in a statement.
-/

/-- An expression over the columns of row sources. -/
inductive Operand
  | column (source : Alias) (name : Ident)
  | yearOf (x : Operand)
  | monthOf (x : Operand)
  | lower (x : Operand)
  | upper (x : Operand)
  | concat (x y : Operand)
  | coalesce (x y : Operand)
  deriving DecidableEq, Repr

namespace Operand

/-- A template applied to expressions, if it takes that many. -/
def ofTemplate? : Template → List Operand → Option Operand
  | .yearOf, [x] => some (yearOf x)
  | .monthOf, [x] => some (monthOf x)
  | .lowercase, [x] => some (lower x)
  | .uppercase, [x] => some (upper x)
  | .concatTwo, [x, y] => some (concat x y)
  | .coalesceTwo, [x, y] => some (coalesce x y)
  | _, _ => none

/-- A template makes an operand of as many as it takes. -/
theorem isSome_ofTemplate? (t : Template) (xs : List Operand) :
    (ofTemplate? t xs).isSome = (xs.length == t.arity) := by
  match xs with
  | [] => cases t <;> rfl
  | [x] => cases t <;> rfl
  | [x, y] => cases t <;> rfl
  | x :: y :: z :: rest =>
    have h1 : (rest.length + 1 + 1 + 1 == 1) = false := by simp
    have h2 : (rest.length + 1 + 1 + 1 == 2) = false := by simp
    cases t <;> simp [ofTemplate?, Template.arity]

/-- A function applied to the tokens of its arguments. -/
def called (f : Function) (args : List Token) : List Token :=
  .call f :: (args ++ [.closeParen])

/-- A part of a date as an integer. -/
def extracted (part : Keyword) (x : List Token) : List Token :=
  called .extract (.keyword part :: .keyword .from_ :: x) ++ [.toInteger]

/-- The tokens of an expression. -/
def tokens : Operand → List Token
  | column source name => [.source source, .dot, .column name]
  | yearOf x => extracted .year x.tokens
  | monthOf x => extracted .month x.tokens
  | lower x => called .lower x.tokens
  | upper x => called .upper x.tokens
  | concat x y => called .concat (x.tokens ++ .comma :: y.tokens)
  | coalesce x y => called .coalesce (x.tokens ++ .comma :: y.tokens)

/-- The expression as it stands in a statement. -/
def text (x : Operand) : String := Sql.text x.tokens

example : (yearOf (column ⟨'p', 0⟩ (.bare "at"))).text = "EXTRACT(YEAR FROM p0.at)::integer" ∧
    (concat (column ⟨'p', 0⟩ (.bare "a")) (column ⟨'c', 1⟩ (.quoted "B"))).text =
      "CONCAT(p0.a, c1.\"B\")" := by decide +kernel

end Operand

end Listing.Sql
