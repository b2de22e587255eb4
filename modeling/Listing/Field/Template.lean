namespace Listing

/-!
# Templates

The closed list of expressions that a request may ask for instead of a plain column.

* `Template` — the six templates, with the number of columns each takes.
-/

/-- An expression over one or two columns. -/
inductive Template
  | yearOf
  | monthOf
  | lowercase
  | uppercase
  | concatTwo
  | coalesceTwo
  deriving DecidableEq, Repr

namespace Template

/-- The name of the template in requests. -/
def wireName : Template → String
  | yearOf => "year_of"
  | monthOf => "month_of"
  | lowercase => "lowercase"
  | uppercase => "uppercase"
  | concatTwo => "concat_two"
  | coalesceTwo => "coalesce_two"

/-- The template of a name. -/
def ofName? : String → Option Template
  | "year_of" => some yearOf
  | "month_of" => some monthOf
  | "lowercase" => some lowercase
  | "uppercase" => some uppercase
  | "concat_two" => some concatTwo
  | "coalesce_two" => some coalesceTwo
  | _ => none

/-- The number of columns the template takes. -/
def arity : Template → Nat
  | yearOf | monthOf | lowercase | uppercase => 1
  | concatTwo | coalesceTwo => 2

/-- A template is found by its name. -/
@[simp] theorem ofName?_wireName (t : Template) : ofName? t.wireName = some t := by
  cases t <;> rfl

end Template

end Listing
