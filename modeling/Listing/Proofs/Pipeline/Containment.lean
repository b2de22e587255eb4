import Listing.Proofs.Pipeline.Narrowing
import Listing.Proofs.Query.Scope

namespace Listing

/-!
# Requests supply no SQL

Whatever texts a request consists of, they reach the conditions and the ordering of a query only as
names of columns, each a single identifier behind the alias of a row source of that query.

* `Pipeline.extends_keptByHooks` — the hooks only add operands over the row sources;
* `Pipeline.run_contained` — what a run adds to the conditions and to the ordering.
-/

open Sql (Operand)

/-- The text of the operand is read as the tokens it is made of; a name is a single one of them. -/
def Sql.Operand.Readable (x : Operand) : Prop := lex x.text.toList = some (lexemes x.tokens)

namespace Pipeline

variable {m : Type → Type} [Monad m] [LawfulMonad m] {config : Config} {options : Options m}
  {q : Query}

/-- The hooks only add operands over the row sources, if the base has an alias of its table. -/
theorem extends_keptByHooks (hbase : q.base.source.Assigned) : KeptByHooks q.Extends := by
  intro b document r r' hr hrun
  have hassigned : r.base.source.Assigned := by
    rw [hr.base]
    exact hbase
  exact hr.trans (Query.Extends.run hassigned hrun)

/-- **No text becomes SQL.** Each operand that `Pipeline.run` with hooks of this library
(`AllBuiltin`) adds to the conditions is `Operand.Written`: a column of a row source of the query
that comes out, named by a text that reads as an identifier, or a template over as many such columns
as it takes.  What is added to the ordering is such an operand, or one with its case ignored
(`Operand.Keyed`); and their texts are read as the tokens they are made of, in which each name is a
single one (`Operand.Readable`).  If the operands of the incoming query are made alike, `Sql.lex`
reads the whole clauses of the query that comes out in this way. -/
theorem run_contained (custom : String → Handler m) (hbase : q.base.source.Assigned)
    (hhooks : AllBuiltin config options q.entity) (params : Params) :
    Yields (fun outcome : Query × Params =>
        (∀ x ∈ outcome.1.conditionOperands, x ∈ q.conditionOperands ∨
          x.Written outcome.1.sources ∧ x.Readable) ∧
        (∃ items, outcome.1.order = q.order ++ items ∧ ∀ item ∈ items,
          item.operand.Keyed outcome.1.sources ∧ item.operand.Readable) ∧
        (q.Sound → (∀ item ∈ q.order, item.operand.Resolved) →
          Sql.lex outcome.1.whereSql.toList =
            some (Sql.lexemes (outcome.1.condition.tokens 0)) ∧
          Sql.lex outcome.1.orderSql.toList = some (Sql.lexemes outcome.1.orderTokens)))
      (run custom config options q params) := by
  have hextends : Yields (fun outcome => q.Extends outcome.1)
      (run custom config options q params) :=
    (extends_keptByHooks hbase).yields_run custom (Query.Extends.refl q) hhooks params
  refine yields_mono ?_ hextends
  intro outcome h
  -- what the request has added is written over the sources, and hence legible
  refine ⟨fun x hx => ?_, ?_, fun hsound horder => ?_⟩
  · exact (h.conditions x hx).imp_right fun hx => ⟨hx, Operand.lex_text hx.resolved⟩
  · obtain ⟨items, hitems, hkeyed⟩ := h.order
    exact ⟨items, hitems, fun item hitem =>
      ⟨hkeyed item hitem, Operand.lex_text (hkeyed item hitem).resolved⟩⟩
  · exact ⟨Query.lex_whereSql (h.sound hsound), Query.lex_orderSql (h.order_resolved horder)⟩

/-- A search for a column, and an ordering by a template, both with names that look like SQL. -/
def namesLikeSql : Params :=
  ⟨[("search", .obj [("x", .obj [("field", .str "\"x\"\" = 1; DROP TABLE y\""),
      ("search_type", .str "eq"), ("search_term", .str "'; DROP TABLE z")])]),
    ("sort", .obj [("field", .obj [("template", .str "uppercase"),
      ("args", .arr [.str "\"a) FROM b\""])]), ("order", .str "desc"), ("ci", .bool true)])]⟩

/-- Both names stay inside one quoted identifier. -/
theorem run_contained_namesLikeSql :
    ∃ r normal,
      run (m := Id) Handler.unfinished .standard .none tenantProducts namesLikeSql =
        pure (r, normal) ∧
      r.selectSql = "SELECT p0.* FROM products AS p0 " ++
        "WHERE p0.tenant = $1 AND p0.\"x\"\" = 1; DROP TABLE y\" = $2 " ++
        "ORDER BY LOWER(UPPER(p0.\"a) FROM b\")) DESC" ∧
      Sql.lex r.whereSql.toList = some [.word "p0", .sign ".", .word "tenant", .sign "=",
        .parameter 1, .word "AND", .word "p0", .sign ".", .quoted "x\" = 1; DROP TABLE y",
        .sign "=", .parameter 2] := by
  have hsound : tenantProducts.Sound := sound_tenantProducts
  have hhooks : AllBuiltin .standard (.none : Options Id) tenantProducts.entity :=
    allBuiltin_of_hooks nofun nofun nofun
  have hcontained := of_ensures_id
    (run_contained Handler.unfinished hsound.base hhooks namesLikeSql)
  obtain ⟨-, -, hclauses⟩ := hcontained _ rfl
  refine ⟨_, _, rfl, by decide +kernel, ?_⟩
  -- read by the theorem, so only the tokens are computed
  rw [(hclauses hsound (fun _ hitem => absurd hitem List.not_mem_nil)).1]
  decide +kernel

end Pipeline

end Listing
