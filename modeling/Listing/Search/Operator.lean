namespace Listing

/-!
# Search operators and combination

* `SearchOperator` — how a column is compared with the term of a search;
* `Combine` — how the condition of a search joins the conditions before it.
-/

/-- How a column is compared with a search term. -/
inductive SearchOperator
  | like
  | ilike
  | eq
  | gt
  | lt
  | gteq
  | lteq
  | isNull
  | isIn
  | notIn
  | between
  deriving DecidableEq, Repr

namespace SearchOperator

/-- The name of the operator in requests. -/
def wireName : SearchOperator → String
  | like => "like"
  | ilike => "ilike"
  | eq => "eq"
  | gt => "gt"
  | lt => "lt"
  | gteq => "gteq"
  | lteq => "lteq"
  | isNull => "is_null"
  | isIn => "in"
  | notIn => "not_in"
  | between => "between"

/-- The name by which messages show the operator. -/
def outline : SearchOperator → String
  | like => "Like"
  | ilike => "Ilike"
  | eq => "Eq"
  | gt => "Gt"
  | lt => "Lt"
  | gteq => "Gteq"
  | lteq => "Lteq"
  | isNull => "IsNull"
  | isIn => "In"
  | notIn => "NotIn"
  | between => "Between"

/-- The operators by name. -/
def named : List (String × SearchOperator) :=
  [like, ilike, eq, gt, lt, gteq, lteq, isNull, isIn, notIn, between].map fun op =>
    (op.wireName, op)

/-- The operator of a name. -/
def ofName? (name : String) : Option SearchOperator := named.lookup name

/-- An operator is found by its name. -/
@[simp] theorem ofName?_wireName (op : SearchOperator) : ofName? op.wireName = some op := by
  cases op <;> rfl

end SearchOperator

/-- How the condition of a search joins the conditions before it. -/
inductive Combine
  | and
  | or
  | andNot
  deriving DecidableEq, Repr

namespace Combine

/-- The name of the combination in requests. -/
def wireName : Combine → String
  | and => "where"
  | or => "or_where"
  | andNot => "not_where"

/-- The combinations by name. -/
def named : List (String × Combine) :=
  [("where", and), ("or_where", or), ("not_where", andNot)]

end Combine

end Listing
