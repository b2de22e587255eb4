import Listing.Proofs.Sql.Placeholders
import Listing.Proofs.Sql.Spacing
import Listing.Query.Statement

namespace Listing

/-!
# Building statements

Either statement of a query can be built in one pass, which writes the text and collects the terms.

* `Query.build`, `Query.buildCount` — the text of a statement with the terms bound to it;
* `Query.build_eq`, `Query.buildCount_eq` — they give the texts and the terms of the query;
* `Query.sourceSql` — the row sources with the conditions, which stands in both texts;
* `Arrangement` — the orderings and windows, which the count does not see;
* `Query.placeholders_match_terms` — placeholders and terms of both statements belong together.
-/

open Sql (Token Condition Loose)

namespace Query

/-- The conditions, if they write something; their terms go to the end of the list. -/
def writeWhere (q : Query) : StateM (List Term) (List Token) := do
  let tokens ← q.condition.write
  return if tokens.isEmpty then [] else .keyword .where_ :: tokens

/-- The statement that selects the rows, and the terms to bind. -/
def build (q : Query) : String × List Term :=
  let (clause, terms) := q.writeWhere []
  (Sql.text ([.keyword .select, .source q.base.source, .dot, .star] ++ q.fromTokens ++ clause ++
    q.orderTokens ++ q.windowTokens), terms)

/-- The statement that counts the rows, and the terms to bind. -/
def buildCount (q : Query) : String × List Term :=
  let (clause, terms) := q.writeWhere []
  match q.entity.primaryKey with
  | some key =>
    (Sql.text ([.keyword .select, .call .count, .keyword .distinct, .source q.base.source, .dot,
      .name key, .closeParen] ++ q.fromTokens ++ clause), terms)
  | none =>
    (Sql.text ([.keyword .select, .call .count, .star, .closeParen, .keyword .from_, .openParen,
      .keyword .select, .keyword .distinct, .source q.base.source, .dot, .star] ++ q.fromTokens ++
      clause ++ [.closeParen, .keyword .as_, .name "t"]), terms)

/-- After no term the clause is the one of the query. -/
theorem writeWhere_nil (q : Query) : q.writeWhere [] = (q.whereTokens, q.terms) := by
  have hwrite : q.condition.write [] = (q.condition.tokens 0, q.terms) := q.condition.write_eq []
  show (if (q.condition.write []).1.isEmpty then [] else
    .keyword .where_ :: (q.condition.write []).1, (q.condition.write []).2) = _
  rw [hwrite]
  rfl

/-- One pass over the query gives its selecting text and its terms. -/
theorem build_eq (q : Query) : q.build = (q.selectSql, q.terms) := by
  rw [build, writeWhere_nil]
  rfl

/-- One pass over the query gives its counting text and its terms. -/
theorem buildCount_eq (q : Query) : q.buildCount = (q.countSql, q.terms) := by
  rw [buildCount, writeWhere_nil, countSql, countTokens]
  cases q.entity.primaryKey <;> rfl

/-! ### The part that both texts share -/

/-- The text of the row sources and the conditions. -/
def sourceSql (q : Query) : String := Sql.text (q.fromTokens ++ q.whereTokens)

/-- The text of the ordering and the window, after a blank if there is one of them. -/
def trailerSql (q : Query) : String :=
  let tokens := q.orderTokens ++ q.windowTokens
  if tokens.isEmpty then "" else " " ++ Sql.text tokens

/-- Nothing clings to the end of a join. -/
theorem loose_join (j : Join) : Loose j.tokens := by
  have htable : Loose (j.kind.tokens ++ aliased j.table j.source) :=
    Sql.loose_append_of_ne_nil _ (Sql.loose_concat [_, _] rfl) (List.cons_ne_nil _ _)
  refine Sql.loose_append htable ?_
  cases j.on with
  | none => exact Sql.loose_nil
  | some on => exact Sql.loose_concat [_, _, _, _, _, _, _] rfl

/-- Nothing clings to the end of the sources. -/
theorem loose_from (q : Query) : Loose q.fromTokens := by
  have htable : Loose (.keyword .from_ :: aliased q.entity.table q.base.source) :=
    Sql.loose_concat [_, _, _] rfl
  exact Sql.loose_append htable (Sql.loose_flatMap loose_join q.joins)

/-- Nor to the end of the conditions after them. -/
theorem loose_source (q : Query) : Loose (q.fromTokens ++ q.whereTokens) := by
  refine Sql.loose_append q.loose_from ?_
  show Loose (if (q.condition.tokens 0).isEmpty then [] else
    .keyword .where_ :: q.condition.tokens 0)
  split
  · exact Sql.loose_nil
  · rename_i hne
    refine Sql.loose_append_of_ne_nil [_] (q.condition.loose_tokens 0) ?_
    simpa using hne

/-- Sources begin with FROM, whatever follows them. -/
theorem head?_source (q : Query) (ts : List Token) :
    (q.fromTokens ++ q.whereTokens ++ ts).head? = some (.keyword .from_) := rfl

/-- Ordering and window start with a word, if there is one of them. -/
theorem head?_trailer (q : Query) :
    q.orderTokens ++ q.windowTokens = [] ∨
      ∃ k, (q.orderTokens ++ q.windowTokens).head? = some (.keyword k) := by
  unfold orderTokens windowTokens
  split
  · cases q.limit with
    | some n => exact .inr ⟨_, rfl⟩
    | none =>
      cases q.offset with
      | some n => exact .inr ⟨_, rfl⟩
      | none => exact .inl rfl
  · exact .inr ⟨_, rfl⟩

/-- What follows the sources is written apart from them. -/
theorem text_source_append (q : Query) :
    Sql.text (q.fromTokens ++ q.whereTokens ++ (q.orderTokens ++ q.windowTokens)) =
      q.sourceSql ++ q.trailerSql := by
  rw [trailerSql]
  rcases q.head?_trailer with hnil | ⟨k, hhead⟩
  · rw [hnil, List.append_nil]
    exact String.append_empty.symm
  · have hne : (q.orderTokens ++ q.windowTokens).isEmpty = false := by
      cases htokens : q.orderTokens ++ q.windowTokens with
      | nil => simp [htokens] at hhead
      | cons t ts => rfl
    simp only [hne, Bool.false_eq_true, if_false]
    exact Sql.text_append_keyword q.loose_source (List.cons_ne_nil _ _) hhead

/-- What the selecting text has before the row sources. -/
theorem text_select (a : Sql.Alias) :
    Sql.text [.keyword .select, .source a, .dot, .star] = "SELECT " ++ a.text ++ ".*" := by
  rw [String.append_assoc]
  rfl

/-- What a count of keys has before the row sources. -/
theorem text_countKeys (a : Sql.Alias) (key : String) :
    Sql.text [.keyword .select, .call .count, .keyword .distinct, .source a, .dot, .name key,
      .closeParen] = "SELECT COUNT(DISTINCT " ++ a.text ++ "." ++ key ++ ")" := by
  simp only [String.append_assoc]
  rfl

/-- What a count of rows has before the row sources. -/
theorem text_countRows (a : Sql.Alias) :
    Sql.text [.keyword .select, .call .count, .star, .closeParen, .keyword .from_, .openParen,
      .keyword .select, .keyword .distinct, .source a, .dot, .star] =
      "SELECT COUNT(*) FROM (SELECT DISTINCT " ++ a.text ++ ".*" := by
  rw [String.append_assoc]
  rfl

/-- The selecting text: the columns of the base, the row sources with the conditions, the ordering
and the window. -/
theorem selectSql_eq (q : Query) :
    q.selectSql = "SELECT " ++ q.base.source.text ++ ".* " ++ q.sourceSql ++ q.trailerSql := by
  have hassoc : q.selectTokens = [.keyword .select, .source q.base.source, .dot, .star] ++
      (q.fromTokens ++ q.whereTokens ++ (q.orderTokens ++ q.windowTokens)) := by
    simp only [selectTokens, List.append_assoc]
  have hloose : Loose [.keyword .select, .source q.base.source, .dot, .star] :=
    Sql.loose_concat [_, _, _] rfl
  rw [selectSql, hassoc, Sql.text_append_keyword hloose (List.cons_ne_nil _ _) (q.head?_source _),
    text_select, text_source_append]
  simp only [String.append_assoc]
  rfl

/-- The counting text: the row sources with the conditions, below a count of distinct keys or of
distinct rows. -/
theorem countSql_eq (q : Query) :
    q.countSql =
      match q.entity.primaryKey with
      | some key =>
        "SELECT COUNT(DISTINCT " ++ q.base.source.text ++ "." ++ key ++ ") " ++ q.sourceSql
      | none => "SELECT COUNT(*) FROM (SELECT DISTINCT " ++ q.base.source.text ++ ".* " ++
          q.sourceSql ++ ") AS t" := by
  rw [countSql, countTokens]
  cases q.entity.primaryKey with
  | some key =>
    have hloose : Loose [.keyword .select, .call .count, .keyword .distinct, .source q.base.source,
      .dot, .name key, .closeParen] := Sql.loose_concat [_, _, _, _, _, _] rfl
    show Sql.text (_ ++ q.fromTokens ++ q.whereTokens) = _
    rw [List.append_assoc, Sql.text_append_keyword hloose (List.cons_ne_nil _ _) rfl,
      text_countKeys]
    simp only [String.append_assoc]
    rfl
  | none =>
    have hloose : Loose [.keyword .select, .call .count, .star, .closeParen, .keyword .from_,
      .openParen, .keyword .select, .keyword .distinct, .source q.base.source, .dot, .star] :=
        Sql.loose_concat [_, _, _, _, _, _, _, _, _, _] rfl
    -- the parenthesis clings to whatever the conditions end in
    have hclose : Sql.text (q.fromTokens ++ q.whereTokens ++
        [.closeParen, .keyword .as_, .name "t"]) = q.sourceSql ++ ") AS t" := by
      have hne : q.fromTokens ++ q.whereTokens ≠ [] := List.cons_ne_nil _ _
      rw [Sql.text_append hne (List.cons_ne_nil _ _), Sql.gap_of_clingsToLast _ rfl,
        String.empty_append]
      rfl
    show Sql.text (_ ++ q.fromTokens ++ q.whereTokens ++ _) = _
    rw [List.append_assoc, List.append_assoc, ← List.append_assoc q.fromTokens,
      Sql.text_append_keyword hloose (List.cons_ne_nil _ _) (q.head?_source _), text_countRows,
      hclose]
    simp only [String.append_assoc]
    rfl

end Query

/-! ### Ordering and window -/

/-- A step that orders the rows or takes a window of them. -/
inductive Arrangement
  | order (operand : Sql.Operand) (direction : Direction)
  | limit (n : Int64)
  | offset (n : Int64)

/-- The query after a step. -/
def Arrangement.apply (q : Query) : Arrangement → Query
  | order operand direction => q.orderBy operand direction
  | limit n => q.withLimit n
  | offset n => q.withOffset n

/-- The query after several steps. -/
def Query.arranged (q : Query) (steps : List Arrangement) : Query := steps.foldl Arrangement.apply q

namespace Query

/-- No arrangement changes the statement that counts. -/
theorem buildCount_apply (q : Query) (step : Arrangement) :
    (step.apply q).buildCount = q.buildCount := by
  cases step <;> rfl

/-- The count does not see how the rows are arranged. -/
theorem buildCount_arranged (q : Query) (steps : List Arrangement) :
    (q.arranged steps).buildCount = q.buildCount := by
  induction steps generalizing q with
  | nil => rfl
  | cons step steps ih =>
    show (arranged (step.apply q) steps).buildCount = _
    rw [ih, buildCount_apply]

/-! ### Placeholders and terms -/

/-- **Placeholders match terms.** `Condition.build` leaves the terms that were bound before as they
are and puts those of the leaves after them, in order; its text has one placeholder for each of
these, numbered from left to right (`Sql.parameters`).  So `Query.build` and `Query.buildCount` bind
the same terms and share the text of the row sources and conditions, and the count depends on no
ordering and no window (`Query.arranged`). -/
theorem placeholders_match_terms {c : Condition} (h : c.Resolved) (bound : List Term) (q : Query)
    (steps : List Arrangement) :
    (∃ ls added, Sql.lex (c.build bound).1.toList = some ls ∧
      (c.build bound).2 = bound ++ added ∧
      added = c.leaves.flatMap Condition.terms ∧
      Sql.parameters ls = List.range' (bound.length + 1) added.length) ∧
    q.build.2 = q.buildCount.2 ∧
    q.build.1 = "SELECT " ++ q.base.source.text ++ ".* " ++ q.sourceSql ++ q.trailerSql ∧
    (q.buildCount.1 =
      match q.entity.primaryKey with
      | some key =>
        "SELECT COUNT(DISTINCT " ++ q.base.source.text ++ "." ++ key ++ ") " ++ q.sourceSql
      | none => "SELECT COUNT(*) FROM (SELECT DISTINCT " ++ q.base.source.text ++ ".* " ++
          q.sourceSql ++ ") AS t") ∧
    (q.arranged steps).buildCount = q.buildCount := by
  rw [c.build_eq, build_eq, buildCount_eq]
  refine ⟨⟨_, c.terms, Condition.lex_condition h _, rfl, c.terms_eq_leaves, ?_⟩, rfl,
    q.selectSql_eq, q.countSql_eq, ?_⟩
  -- the placeholders are those of the lexed text, so a dollar sign in a name is none
  · exact c.parameters_tokens bound.length
  · rw [buildCount_arranged, buildCount_eq]

/-- The dollar sign of a quoted name is not the sign of a placeholder. -/
theorem placeholders_match_terms_quoted :
    ∃ ls, Sql.lex "p0.\"a$1\" = $2 OR p0.\"a$1\" IN ($3, $4)".toList = some ls ∧
      Sql.parameters ls = [2, 3, 4] := by
  let column : Sql.Operand := .column ⟨'p', 0⟩ (.quoted "a$1")
  let c : Condition := .any [.compare column .eq (.text "x"),
    .inList column [.text "y", .text "z"] false]
  let q : Query := ⟨.empty, ⟨⟨'p', 0⟩, "product"⟩, .empty "product" "products", [], [⟨none, c⟩], [],
    none, none, none⟩
  have hcolumn : column.Resolved := ⟨⟨"products", 0, by decide⟩, ⟨"\"a$1\"", rfl⟩⟩
  -- the column has a dollar sign in its name
  have hc : c.Resolved := by
    intro x hx
    have hx' : x = column := by simpa [c, Condition.operands, Condition.operandsOf] using hx
    rw [hx']
    exact hcolumn
  obtain ⟨⟨ls, added, hls, -, hadded, hslots⟩, -⟩ :=
    q.placeholders_match_terms hc [.bool true] [.limit 10]
  have htext : (c.build [.bool true]).1 = "p0.\"a$1\" = $2 OR p0.\"a$1\" IN ($3, $4)" := by
    decide +kernel
  refine ⟨ls, htext ▸ hls, ?_⟩
  rw [hslots, hadded]
  rfl

end Query

end Listing
