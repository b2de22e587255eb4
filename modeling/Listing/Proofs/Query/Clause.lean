import Listing.Proofs.Query.Build
import Listing.Proofs.Query.Sound
import Listing.Proofs.Sql.Meaning

namespace Listing

/-!
# The conditions of a query

What the `WHERE` clause of a query says, as a reader of SQL takes its text.

* `Query.whereSql`, `Query.clauseSql` — the text of the clause, without and with its word;
* `Query.statements_of_clause` — where the clause stands in both statements;
* `Query.WhereIs` — the truth value of the clause for given truth values of the atoms;
* `Query.whereIs_iff` — it is the conjunction of the conjuncts;
* `Query.whereIs_of_prefix` — so a query with more conjuncts has no more rows.
-/

open Sql (Atom Condition)

/-! ### Restrictions -/

namespace Sql.Condition

/-- What a condition demands of a row; an empty one demands nothing. -/
def restriction (c : Condition) (v : Atom Term → Truth) : Truth :=
  if c.isEmpty then .yes else c.pruned.eval v

/-- What is pruned demands nothing. -/
theorem conj_prunedParts (parts : List Condition) (v : Atom Term → Truth) :
    Truth.conj (evals v (prunedParts parts)) = Truth.conj (parts.map fun c => c.restriction v) := by
  induction parts with
  | nil => rfl
  | cons part rest ih =>
    rw [prunedParts, List.map_cons, Truth.conj_cons, ← ih, restriction]
    cases part.isEmpty with
    | true => rfl
    | false => rfl

/-- A conjunction demands what its parts demand. -/
theorem restriction_all (parts : List Condition) (v : Atom Term → Truth) :
    (all parts).restriction v = Truth.conj (parts.map fun c => c.restriction v) := by
  rw [← conj_prunedParts]
  show (if areEmpty parts then Truth.yes else Truth.conj (evals v (prunedParts parts))) = _
  split
  · rename_i hempty
    rw [prunedParts_eq_nil hempty]
    rfl
  · rfl

end Sql.Condition

namespace Query

/-- The conjuncts of a query demand what each of them demands. -/
theorem restriction_merged (conjuncts : List Conjunct) (v : Atom Term → Truth) :
    (merged conjuncts).restriction v =
      Truth.conj (conjuncts.map fun x => x.condition.restriction v) := by
  unfold merged
  split
  · exact (Truth.and_yes _).symm
  · rw [Condition.restriction_all, List.map_map]
    rfl

/-! ### The clause -/

/-- The text of the conditions, without the word before them. -/
def whereSql (q : Query) : String := (q.condition.build []).1

/-- The clause with the word before it, if the conditions write something. -/
def clauseSql (q : Query) : String := if q.whereSql = "" then "" else " WHERE " ++ q.whereSql

/-- The clause has the truth value when the atoms have the given ones: its text, with the terms of
the query bound to its placeholders, is read as a formula of that value.  A query without a clause
restricts nothing. -/
def WhereIs (q : Query) (v : Atom Term → Truth) (t : Truth) : Prop :=
  if q.whereSql = "" then t = .yes
  else ∃ f, Sql.Means q.whereSql q.build.2 f ∧ f.eval v = t

/-- The clause is the text of the condition. -/
theorem whereSql_eq (q : Query) : q.whereSql = q.condition.text 0 := by
  rw [whereSql, Condition.build_eq]
  rfl

variable {q r : Query} {v : Atom Term → Truth}

/-- No clause is written exactly if the condition says nothing. -/
theorem whereSql_eq_empty_iff (hq : q.Sound) : q.whereSql = "" ↔ q.condition.isEmpty = true := by
  rw [whereSql_eq]
  exact Condition.text_eq_empty_iff hq.condition 0

/-- The text of the sources and the conditions is that of the sources, and the clause if there is
one. -/
theorem sourceSql_eq (hq : q.Sound) : q.sourceSql = Sql.text q.fromTokens ++ q.clauseSql := by
  have hempty := whereSql_eq_empty_iff hq
  rw [← Condition.tokens_eq_nil_iff _ 0] at hempty
  rw [sourceSql, whereTokens, clauseSql]
  by_cases htokens : q.condition.tokens 0 = []
  · rw [if_pos (hempty.mpr htokens), htokens]
    simp
  -- nothing clings to WHERE, so it is a text of its own before the clause
  · have hclause : Sql.text (.keyword .where_ :: q.condition.tokens 0) =
        "WHERE " ++ q.whereSql := by
      rw [Sql.text_keyword_cons _ (q.condition.detached_tokens 0) htokens, whereSql_eq]
      exact String.append_assoc.symm
    have hwhere : (q.condition.tokens 0).isEmpty = false := by simpa using htokens
    rw [if_neg fun h => htokens (hempty.mp h)]
    simp only [hwhere, Bool.false_eq_true, if_false]
    rw [Sql.text_append_keyword q.loose_from (List.cons_ne_nil _ _) rfl, hclause]
    exact congrArg _ String.append_assoc.symm

/-- **The clause in the statements.** Both statements of a query have `Query.clauseSql` right after
their row sources: so the conditions that `Query.WhereIs` reads restrict the rows that
`Query.selectSql` selects and those that `Query.countSql` counts. -/
theorem statements_of_clause (hq : q.Sound) :
    q.selectSql = "SELECT " ++ q.base.source.text ++ ".* " ++ Sql.text q.fromTokens ++
        q.clauseSql ++ q.trailerSql ∧
      q.countSql =
        match q.entity.primaryKey with
        | some key => "SELECT COUNT(DISTINCT " ++ q.base.source.text ++ "." ++ key ++ ") " ++
            Sql.text q.fromTokens ++ q.clauseSql
        | none => "SELECT COUNT(*) FROM (SELECT DISTINCT " ++ q.base.source.text ++ ".* " ++
            Sql.text q.fromTokens ++ q.clauseSql ++ ") AS t" := by
  rw [selectSql_eq, countSql_eq, sourceSql_eq hq]
  refine ⟨by simp only [String.append_assoc], ?_⟩
  cases q.entity.primaryKey with
  | some key => simp only [String.append_assoc]
  | none => simp only [String.append_assoc]

/-- The clause has the truth value that the conditions demand together. -/
theorem whereIs_iff (hq : q.Sound) {t : Truth} :
    q.WhereIs v t ↔ Truth.conj (q.conjuncts.map fun x => x.condition.restriction v) = t := by
  rw [← restriction_merged, WhereIs]
  show _ ↔ (if q.condition.isEmpty then Truth.yes else q.condition.pruned.eval v) = t
  -- without a condition there is no clause, and every row is kept
  cases hempty : q.condition.isEmpty with
  | true =>
    rw [if_pos ((whereSql_eq_empty_iff hq).mpr hempty), if_pos rfl]
    exact eq_comm
  | false =>
    have hne : q.whereSql ≠ "" := by
      rw [ne_eq, whereSql_eq_empty_iff hq, hempty]
      exact Bool.false_ne_true
    have hterms : q.build.2 = [] ++ q.condition.terms := by
      rw [build_eq]
      rfl
    obtain ⟨f, hmeans, heval⟩ := Condition.means_text hq.condition hempty []
    rw [if_neg hne, if_neg Bool.false_ne_true, whereSql_eq, hterms]
    constructor
    · -- the text is read in one way only
      rintro ⟨g, hmeans', rfl⟩
      rw [hmeans'.unique hmeans]
      exact (heval v).symm
    · rintro rfl
      exact ⟨f, hmeans, heval v⟩

/-- A query that has all conjuncts of another, and more, gives a row only if the other does. -/
theorem whereIs_of_prefix (hq : q.Sound) (hr : r.Sound) (h : q.conjuncts <+: r.conjuncts)
    (hyes : r.WhereIs v .yes) : q.WhereIs v .yes := by
  obtain ⟨more, hmore⟩ := h
  rw [whereIs_iff hr, ← hmore, List.map_append, Truth.conj_append, Truth.and_eq_yes_iff] at hyes
  exact (whereIs_iff hq).mpr hyes.1

end Query

end Listing
