import Listing.Query.Basic

namespace Listing

/-!
# Fields of row sources

A field that a request names becomes an operand of the row source it was reached at: a computed
field of that entity by its name, else a column, whose name has to be an identifier.

* `Query.operand` — the operand of a field at a row source.
-/

namespace Query

/-- A column of a row source. -/
def columnOperand (b : Binding) (name : String) : Except Error Sql.Operand :=
  match Ident.parse name with
  | .ok ident => .ok (.column b.source ident)
  | .error fault => .error (.ofIdent fault)

/-- A field as it is written, with no look at the entity. -/
def writtenOperand (b : Binding) : Field → Except Error Sql.Operand
  | .column name => columnOperand b name
  | .computed template args => do
    let columns ← args.mapM (columnOperand b)
    match Sql.Operand.ofTemplate? template columns with
    | some operand => return operand
    | none => throw (.invalidParams (.templateArity template columns.length))

/-- The field that a field stands for at a row source. -/
def fieldAt (q : Query) (b : Binding) : Field → Field
  | .column name =>
    ((q.entityOf b).bind fun entity => entity.computed? name).getD (.column name)
  | field => field

/-- The operand of a field at a row source. -/
def operand (q : Query) (b : Binding) (field : Field) : Except Error Sql.Operand :=
  writtenOperand b (q.fieldAt b field)

end Query

end Listing
