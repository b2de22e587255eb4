import Listing.Query.Basic
import Listing.Term.Wire

namespace Listing

/-!
# Statements of queries

The two statements that a query stands for: one selects its rows, the other counts them.

* `Query.selectSql` — the rows, with ordering and window;
* `Query.countSql` — their number, without ordering and window: of distinct primary keys if the
  entity has one, else of distinct rows, so that joins do not multiply the count;
* `Query.terms` — the terms to bind, the same for both.
-/

open Sql (Token)

/-- The words of a kind of join. -/
def JoinKind.tokens : JoinKind → List Token
  | inner => [.keyword .inner, .keyword .join]
  | left => [.keyword .left, .keyword .join]
  | cross => [.keyword .cross, .keyword .join]

/-- The word of a direction. -/
def Direction.token : Direction → Token
  | asc => .keyword .asc
  | desc => .keyword .desc

/-- The condition of a join, its own source first. -/
def JoinOn.tokens (source : Sql.Alias) (on : JoinOn) : List Token :=
  [.keyword .on, .source source, .dot, .name on.relatedKey, .sign .eq, .source on.owner, .dot,
    .name on.ownerKey]

/-- A table under an alias. -/
def aliased (table : String) (source : Sql.Alias) : List Token :=
  [.name table, .keyword .as_, .source source]

/-- A join of a table under an alias. -/
def Join.tokens (j : Join) : List Token :=
  j.kind.tokens ++ aliased j.table j.source ++
    (match j.on with
      | some on => on.tokens j.source
      | none => [])

/-- One key of an ordering. -/
def OrderItem.tokens (item : OrderItem) : List Token :=
  item.operand.tokens ++ [item.direction.token]

namespace Query

/-- The row sources: the base table and the joins. -/
def fromTokens (q : Query) : List Token :=
  .keyword .from_ :: (aliased q.entity.table q.base.source ++ q.joins.flatMap Join.tokens)

/-- All conditions of the query as one. -/
def condition (q : Query) : Sql.Condition := merged q.conjuncts

/-- The conditions, if any of them writes something. -/
def whereTokens (q : Query) : List Token :=
  let tokens := q.condition.tokens 0
  -- groups without an atom restrict nothing, and a lone keyword would be no statement
  if tokens.isEmpty then [] else .keyword .where_ :: tokens

/-- The ordering, if there is one. -/
def orderTokens (q : Query) : List Token :=
  if q.order.isEmpty then []
  else .keyword .order :: .keyword .by_ :: Sql.commaSeparated (q.order.map OrderItem.tokens)

/-- The window, if there is one. -/
def windowTokens (q : Query) : List Token :=
  (match q.limit with
    | some n => [.keyword .limit, .integer n.toInt]
    | none => []) ++
  (match q.offset with
    | some n => [.keyword .offset, .integer n.toInt]
    | none => [])

/-- The statement that selects the rows. -/
def selectTokens (q : Query) : List Token :=
  [.keyword .select, .source q.base.source, .dot, .star] ++ q.fromTokens ++ q.whereTokens ++
    q.orderTokens ++ q.windowTokens

/-- The statement that counts the rows. -/
def countTokens (q : Query) : List Token :=
  match q.entity.primaryKey with
  | some key =>
    [.keyword .select, .call .count, .keyword .distinct, .source q.base.source, .dot, .name key,
      .closeParen] ++ q.fromTokens ++ q.whereTokens
  | none =>
    [.keyword .select, .call .count, .star, .closeParen, .keyword .from_, .openParen,
      .keyword .select, .keyword .distinct, .source q.base.source, .dot, .star] ++ q.fromTokens ++
      q.whereTokens ++ [.closeParen, .keyword .as_, .name "t"]

/-- The text that selects the rows. -/
def selectSql (q : Query) : String := Sql.text q.selectTokens

/-- The text that counts the rows. -/
def countSql (q : Query) : String := Sql.text q.countTokens

/-- The terms to bind to the placeholders of either statement, in order. -/
def terms (q : Query) : List Term := q.condition.terms

/-- The outline of a query: its selecting statement, its terms and its fault. -/
def outline (q : Query) : String :=
  Text.Outline.record "Query"
    [("sql", Text.quoted q.selectSql), ("params", Text.Outline.list (q.terms.map Term.outline)),
      ("build_error",
        Text.Outline.optional (q.fault.map fun fault => Text.quoted fault.message))]

end Query

end Listing
