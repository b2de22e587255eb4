import Listing.Page.Stage
import Listing.Proofs.Ident
import Listing.Proofs.Query.Clause
import Listing.Proofs.Stage.Frame

namespace Listing

/-!
# What requests put into statements

A request names fields and columns by texts.  They come into the conditions and the ordering of a
query only as columns of its own row sources, with names that read as identifiers, and under the
templates.

* `Operand.Plain`, `Operand.Written`, `Operand.Keyed` — the operands that requests can put into a
  condition, and those that they can order by;
* `Operand.lex_text` — such an operand is read as its own tokens, a name always as one;
* `Query.sources`, `Query.Extends` — the aliases of a query, and queries with nothing but such
  operands added;
* `Query.Extends.search` and the lemmas after it — what each step of a hook adds;
* `Query.lex_whereSql`, `Query.lex_orderSql` — the clauses are read as the tokens they are made of.
-/

open Sql (Alias Condition Operand Token)

/-! ### Operands over row sources -/

namespace Sql.Operand

variable {sources more : List Alias} {x : Operand}

/-- A column of one of the sources: its alias, a dot, and a text that reads as an identifier. -/
def Plain (sources : List Alias) (x : Operand) : Prop :=
  ∃ a ∈ sources, a.Assigned ∧ ∃ name ident, Ident.parse name = .ok ident ∧ x = column a ident ∧
    x.text = a.text ++ "." ++ name

/-- A column of one of the sources, or a template over as many of them as it takes. -/
def Written (sources : List Alias) (x : Operand) : Prop :=
  x.Plain sources ∨ ∃ t columns, columns.length = t.arity ∧ (∀ y ∈ columns, y.Plain sources) ∧
    ofTemplate? t columns = some x

/-- An operand that requests can order by: case may be ignored. -/
def Keyed (sources : List Alias) (x : Operand) : Prop :=
  x.Written sources ∨ ∃ y, y.Written sources ∧ x = lower y

/-- A column of some sources is one of more sources. -/
theorem Plain.mono (h : x.Plain sources) (hmore : sources ⊆ more) : x.Plain more := by
  obtain ⟨a, ha, hx⟩ := h
  exact ⟨a, hmore ha, hx⟩

/-- So is a template over such columns. -/
theorem Written.mono (h : x.Written sources) (hmore : sources ⊆ more) : x.Written more := by
  rcases h with h | ⟨t, columns, hlength, hcolumns, hx⟩
  · exact .inl (h.mono hmore)
  · exact .inr ⟨t, columns, hlength, fun y hy => (hcolumns y hy).mono hmore, hx⟩

/-- So is an operand that requests can order by. -/
theorem Keyed.mono (h : x.Keyed sources) (hmore : sources ⊆ more) : x.Keyed more := by
  rcases h with h | ⟨y, hy, hx⟩
  · exact .inl (h.mono hmore)
  · exact .inr ⟨y, hy.mono hmore, hx⟩

/-- A column whose name reads as an identifier is resolved. -/
theorem Plain.resolved (h : x.Plain sources) : x.Resolved := by
  obtain ⟨a, -, ha, name, ident, hident, rfl, -⟩ := h
  exact ⟨ha, name, hident⟩

/-- A template over resolved columns is resolved. -/
theorem Written.resolved (h : x.Written sources) : x.Resolved := by
  rcases h with h | ⟨t, columns, -, hcolumns, hx⟩
  · exact h.resolved
  · exact resolved_ofTemplate (fun y hy => (hcolumns y hy).resolved) hx

/-- Ignoring case resolves nothing more. -/
theorem Keyed.resolved (h : x.Keyed sources) : x.Resolved := by
  rcases h with h | ⟨y, hy, rfl⟩
  · exact h.resolved
  · exact hy.resolved

/-- The text of a resolved operand is read as the tokens it is made of; a name is one of them. -/
theorem lex_text (h : x.Resolved) : lex x.text.toList = some (lexemes x.tokens) :=
  Sql.lex_text (allLegible_tokens h)

end Sql.Operand

/-! ### Operands of conditions -/

namespace Sql.Condition

variable {x : Operand} {c d : Condition}

/-- An alternative is about what the two conditions are about. -/
theorem mem_operands_orElse (h : x ∈ (c.orElse d).operands) : x ∈ c.operands ∨ x ∈ d.operands := by
  unfold orElse at h
  -- a disjunction takes the alternative in, and any other condition is put beside it
  split at h
  · rename_i parts
    obtain ⟨part, hpart, hx⟩ := mem_operandsOf.mp h
    rcases List.mem_append.mp hpart with hold | hnew
    · exact .inl (mem_operandsOf.mpr ⟨part, hold, hx⟩)
    · exact .inr (List.mem_singleton.mp hnew ▸ hx)
  · obtain ⟨part, hpart, hx⟩ := mem_operandsOf.mp h
    rcases List.mem_pair.mp hpart with rfl | rfl
    · exact .inl hx
    · exact .inr hx

end Sql.Condition

/-- The condition of an operator is about the operand that it is put on. -/
theorem SearchOperator.operands_condition {lhs x : Operand} {operator : SearchOperator}
    {term : Term} {c : Condition} (h : operator.condition lhs term = .ok c)
    (hx : x ∈ c.operands) : x = lhs := by
  -- a list or two bounds make several conditions or none, but all on the one operand
  cases operator with
  | isNull =>
    simp only [condition] at h
    split at h <;> cases h
    exact List.mem_singleton.mp hx
  | isIn =>
    simp only [condition] at h
    split at h <;> cases h
    unfold Condition.isIn at hx
    split at hx
    · cases hx
    · exact List.mem_singleton.mp hx
  | notIn =>
    simp only [condition] at h
    split at h <;> cases h
    unfold Condition.isNotIn at hx
    split at hx
    · cases hx
    · exact List.mem_singleton.mp hx
  | between =>
    simp only [condition] at h
    split at h <;> cases h
    obtain ⟨part, hpart, hx⟩ := Condition.mem_operandsOf.mp hx
    rcases List.mem_pair.mp hpart with rfl | rfl <;> exact List.mem_singleton.mp hx
  | like | ilike | eq | gt | lt | gteq | lteq =>
    cases h
    exact List.mem_singleton.mp hx

namespace Query

/-! ### Sources -/

/-- The aliases of the row sources of a query: of its base, and of its joins. -/
def sources (q : Query) : List Alias := q.base.source :: q.joins.map Join.source

/-- The operands of the conditions of a query. -/
def conditionOperands (q : Query) : List Operand :=
  q.conjuncts.flatMap fun conjunct => conjunct.condition.operands

variable {q r s : Query} {b : Binding} {x : Operand}

/-- The sources of a query stay where joins are only added. -/
theorem sources_subset (hbase : r.base = q.base) (hjoins : q.joins <+: r.joins) :
    q.sources ⊆ r.sources := by
  rw [sources, sources, hbase]
  exact List.cons_subset_cons _ (List.map_subset _ hjoins.subset)

/-- The source that a join gives is one of the query after it. -/
theorem source_mem_addJoin (q : Query) (kind : JoinKind) (table entity : String)
    (on : Option JoinOn) :
    (q.addJoin kind table entity on).2.source ∈ (q.addJoin kind table entity on).1.sources := by
  simp [addJoin, sources]

/-- So it is whether or not the join can be made. -/
theorem source_mem_join (q : Query) (kind : JoinKind) (owner : Binding) (relation : String) :
    (q.join kind owner relation).2.source ∈ (q.join kind owner relation).1.sources := by
  unfold join
  split
  · exact source_mem_addJoin _ kind _ _ none
  · split
    · exact source_mem_addJoin _ kind _ _ none
    · exact source_mem_addJoin q kind _ _ _

/-- The row source that a path leads to is one of the query, if the first one is. -/
theorem source_mem_followFrom (q : Query) {start : Binding} (hstart : start.source ∈ q.sources)
    (path : JoinPath) :
    (q.followFrom start path).2.source ∈ (q.followFrom start path).1.sources := by
  unfold followFrom
  induction path generalizing q start with
  | nil => exact hstart
  | cons s rest ih => exact ih _ (source_mem_join q s.kind start s.relation)

/-- A path ends at a source of the query after it. -/
theorem source_mem_follow (q : Query) (path : JoinPath) :
    (q.follow path).2.source ∈ (q.follow path).1.sources :=
  source_mem_followFrom q (List.mem_cons_self : q.base.source ∈ q.sources) path

/-- A field that becomes an operand of a row source is written over it. -/
theorem columnOperand_plain {sources : List Alias} (hb : b.source ∈ sources)
    (hassigned : b.source.Assigned) {name : String} (h : columnOperand b name = .ok x) :
    x.Plain sources := by
  unfold columnOperand at h
  split at h
  · rename_i ident hident
    cases h
    refine ⟨b.source, hb, hassigned, name, ident, hident, rfl, ?_⟩
    have htext : (Operand.column b.source ident).text = b.source.text ++ ("." ++ ident.text) := rfl
    rw [htext, Ident.text_of_parse hident, String.append_assoc]
  · cases h

/-- A field becomes a column of its source, or a template over such columns. -/
theorem operand_written {sources : List Alias} (hb : b.source ∈ sources)
    (hassigned : b.source.Assigned) {field : Field} (h : q.operand b field = .ok x) :
    x.Written sources := by
  unfold operand at h
  -- a name may be that of a computed field, which is looked up first
  cases hfield : q.fieldAt b field with
  | column name =>
    rw [hfield] at h
    exact .inl (columnOperand_plain hb hassigned h)
  | computed template args =>
    rw [hfield] at h
    obtain ⟨columns, hcolumns, hmore⟩ := Except.bind_ok h
    split at hmore
    · rename_i operand hoperand
      cases hmore
      refine .inr ⟨template, columns, ?_, fun y hy => ?_, hoperand⟩
      · -- only as many columns as the template takes make an operand
        have hsome := Operand.isSome_ofTemplate? template columns
        rw [hoperand] at hsome
        exact of_decide_eq_true hsome.symm
      · obtain ⟨name, -, hname⟩ := Except.mapM_ok hcolumns y hy
        exact columnOperand_plain hb hassigned hname
    · cases hmore

/-! ### Queries with more operands -/

/-- The second query has all row sources and keys of the first, and what it has more is written over
its own row sources. -/
structure Extends (q r : Query) : Prop where
  base : r.base = q.base
  joins : q.joins <+: r.joins
  conditions : ∀ x ∈ r.conditionOperands, x ∈ q.conditionOperands ∨ x.Written r.sources
  order : ∃ items, r.order = q.order ++ items ∧ ∀ item ∈ items, item.operand.Keyed r.sources

namespace Extends

/-- A query with the ordering left as it is extends another if its conditions are about no new
operands but written ones. -/
theorem of_order_eq (hbase : r.base = q.base) (hjoins : q.joins <+: r.joins)
    (hconditions : ∀ x ∈ r.conditionOperands, x ∈ q.conditionOperands ∨ x.Written r.sources)
    (horder : r.order = q.order) : q.Extends r :=
  ⟨hbase, hjoins, hconditions, [], horder.trans (List.append_nil _).symm,
    fun _ hitem => absurd hitem List.not_mem_nil⟩

/-- Every query extends itself. -/
theorem refl (q : Query) : q.Extends q :=
  of_order_eq rfl (List.prefix_refl _) (fun _ hx => .inl hx) rfl

/-- The sources of a query are sources of those that extend it. -/
theorem sources_subset (h : q.Extends r) : q.sources ⊆ r.sources :=
  Query.sources_subset h.base h.joins

/-- What is put in by two steps is put in by both together. -/
theorem trans (h : q.Extends r) (h' : r.Extends s) : q.Extends s := by
  refine ⟨h'.base.trans h.base, h.joins.trans h'.joins, fun x hx => ?_, ?_⟩
  -- what the first step put in is of sources that the second one has kept
  · rcases h'.conditions x hx with hx | hx
    · exact (h.conditions x hx).imp_right fun hx => hx.mono h'.sources_subset
    · exact .inr hx
  · obtain ⟨items, hitems, hkeyed⟩ := h.order
    obtain ⟨items', hitems', hkeyed'⟩ := h'.order
    refine ⟨items ++ items', ?_, List.forall_mem_append.mpr ⟨fun item hitem => ?_, hkeyed'⟩⟩
    · rw [hitems', hitems, List.append_assoc]
    · exact (hkeyed item hitem).mono h'.sources_subset

/-- A query that differs in its window at most. -/
theorem of_sameRows (h : q.SameRows r) : q.Extends r := by
  obtain ⟨limit, offset, rfl⟩ := h
  exact of_order_eq rfl (List.prefix_refl _) (fun _ hx => .inl hx) rfl

/-- A query with another condition, about a written operand besides what was there. -/
theorem of_conjuncts {conjuncts : List Conjunct} (h : ∀ x ∈ conjuncts.flatMap fun conjunct =>
      conjunct.condition.operands, x ∈ q.conditionOperands ∨ x.Written q.sources) :
    q.Extends { q with conjuncts } :=
  of_order_eq rfl (List.prefix_refl _) h rfl

/-- An operand of the sources may be ordered by. -/
theorem orderBy {operand : Operand} (h : operand.Keyed q.sources) (direction : Direction) :
    q.Extends (q.orderBy operand direction) :=
  ⟨rfl, List.prefix_refl _, fun _ hx => .inl hx, [⟨operand, direction⟩], rfl,
    List.forall_mem_singleton.mpr h⟩

/-- Joining along a path. -/
theorem follow (q : Query) (hbase : q.base.source.Assigned) (path : JoinPath) :
    q.Extends (q.follow path).1 := by
  obtain ⟨joins, fault, hframe⟩ := q.follow_frame path
  have hjoined := joined_followFrom q hbase path
  refine of_order_eq hjoined.base hjoined.joins (fun x hx => .inl ?_) (by rw [hframe])
  rw [hframe] at hx
  exact hx

/-- A condition on operands of the sources may be added under a tag. -/
theorem tagged {c : Condition} (h : ∀ x ∈ c.operands, x.Written q.sources) (tag : String) :
    q.Extends (q.tagged tag c) := by
  refine of_conjuncts fun x hx => ?_
  rw [List.flatMap_append, List.mem_append, List.flatMap_singleton] at hx
  exact hx.imp_right (h x)

/-- Attaching a condition about written operands. -/
theorem attach {c : Condition} (h : ∀ x ∈ c.operands, x.Written q.sources) (tag : String)
    (combine : Combine) : q.Extends (q.attach tag combine c) := by
  rcases q.attach_cases tag combine c with
    ⟨d, hd, hattach⟩ | ⟨before, y, after, hconjuncts, -, hattach⟩
  · rw [hattach]
    rcases hd with rfl | rfl
    · exact tagged h tag
    · exact tagged (c := .not c) h tag
  · rw [hattach]
    refine of_conjuncts fun x hx => ?_
    rw [conditionOperands, hconjuncts]
    rw [List.flatMap_append, List.mem_append, List.flatMap_cons, List.mem_append] at hx ⊢
    -- an alternative brings in its own operands alone
    rcases hx with hx | hx | hx
    · exact .inl (.inl hx)
    · exact (Condition.mem_operands_orElse hx).imp (fun hx => .inr (.inl hx)) (h x)
    · exact .inl (.inr (.inr hx))

/-! ### Steps of hooks -/

/-- One criterion of a search. -/
theorem search (hbase : q.base.source.Assigned) {c : Criterion} (h : q.search c = .ok r) :
    q.Extends r := by
  rcases search_ok h with ⟨-, rfl⟩ | ⟨-, -, operand, condition, hoperand, hcondition, rfl⟩
  · exact refl _
  · have htarget := source_mem_follow q c.path
    have hassigned := (joined_followFrom q hbase c.path).source
    have hwritten := operand_written htarget hassigned hoperand
    -- the path brings the source in, and then the condition is about a field of it
    refine (follow q hbase c.path).trans (attach (fun x hx => ?_) c.tag c.combine)
    rw [SearchOperator.operands_condition hcondition hx]
    exact hwritten

/-- One key of an ordering. -/
theorem sort (hbase : q.base.source.Assigned) {key : SortKey} (h : q.sort key = .ok r) :
    q.Extends r := by
  rcases sort_ok h with ⟨-, rfl⟩ | ⟨direction, operand, -, hoperand, rfl⟩
  · exact refl _
  · have htarget := source_mem_follow q key.path
    have hassigned := (joined_followFrom q hbase key.path).source
    have hwritten := operand_written htarget hassigned hoperand
    refine (follow q hbase key.path).trans (orderBy ?_ direction)
    -- to ignore case is put around the operand as a whole
    split
    · exact .inr ⟨operand, hwritten, rfl⟩
    · exact .inl hwritten

/-- The rows after a key. -/
theorem pageAfter (hbase : q.base.source.Assigned) {p : KeysetPage} (h : q.pageAfter p = .ok r) :
    q.Extends r := by
  rcases pageAfter_ok h with ⟨-, rfl⟩ | ⟨-, key, hkey, rfl⟩
  · exact of_sameRows ⟨_, _, rfl⟩
  · refine trans (of_conjuncts fun x hx => ?_) (of_sameRows ⟨some (max p.perPage 1), q.offset, rfl⟩)
    rw [List.flatMap_append, List.mem_append, List.flatMap_singleton] at hx
    refine hx.imp_right fun hx => ?_
    rw [List.mem_singleton.mp hx]
    exact .inl (columnOperand_plain List.mem_cons_self hbase hkey)

/-- The base of a query stays that of the queries that extend it. -/
theorem assigned (h : q.Extends r) (hbase : q.base.source.Assigned) : r.base.source.Assigned := by
  rw [h.base]
  exact hbase

/-- Every step extends what the ones before it have extended. -/
theorem keptBySteps (hbase : q.base.source.Assigned) : KeptBySteps q.Extends where
  search h hstep := h.trans (search (h.assigned hbase) hstep)
  sort h hstep := h.trans (sort (h.assigned hbase) hstep)
  page _ h := h.trans (of_sameRows ⟨_, _, rfl⟩)
  pageAfter h hstep := h.trans (pageAfter (h.assigned hbase) hstep)

/-- A hook of this library, whatever document it is run with. -/
theorem run (hbase : q.base.source.Assigned) {hook : Builtin} {document : Json}
    (h : hook.run q document = .ok r) : q.Extends r := (keptBySteps hbase).run (refl q) h

/-- A sound query stays sound. -/
theorem sound (h : q.Extends r) (hq : q.Sound) : r.Sound := by
  refine ⟨by rw [h.base]; exact hq.base, fun conjunct hconjunct x hx => ?_⟩
  rcases h.conditions x (List.mem_flatMap.mpr ⟨conjunct, hconjunct, hx⟩) with hold | hnew
  · obtain ⟨conjunct', hconjunct', hx'⟩ := List.mem_flatMap.mp hold
    exact hq.resolved conjunct' hconjunct' x hx'
  · exact hnew.resolved

/-- So does an ordering by resolved operands. -/
theorem order_resolved (h : q.Extends r) (hq : ∀ item ∈ q.order, item.operand.Resolved) :
    ∀ item ∈ r.order, item.operand.Resolved := by
  obtain ⟨items, hitems, hkeyed⟩ := h.order
  rw [hitems]
  exact List.forall_mem_append.mpr ⟨hq, fun item hitem => (hkeyed item hitem).resolved⟩

end Extends

/-! ### Clauses as they are read -/

/-- The clause of the conditions is read as the tokens it is made of. -/
theorem lex_whereSql (hq : q.Sound) :
    Sql.lex q.whereSql.toList = some (Sql.lexemes (q.condition.tokens 0)) := by
  rw [whereSql_eq]
  exact Condition.lex_condition hq.condition 0

/-- The text of the ordering. -/
def orderSql (q : Query) : String := Sql.text q.orderTokens

/-- The clause of the ordering is read as the tokens it is made of. -/
theorem lex_orderSql (hq : ∀ item ∈ q.order, item.operand.Resolved) :
    Sql.lex q.orderSql.toList = some (Sql.lexemes q.orderTokens) := by
  have hitem : ∀ item ∈ q.order, Sql.AllLegible item.tokens := by
    intro item hitem
    rw [OrderItem.tokens, Sql.allLegible_append]
    refine ⟨Operand.allLegible_tokens (hq item hitem), ?_⟩
    cases item.direction <;> simp [Direction.token, Sql.Token.Legible]
  refine Sql.lex_text ?_
  show Sql.AllLegible (if q.order.isEmpty then [] else _)
  split
  · exact Sql.allLegible_nil
  · simp only [Sql.allLegible_cons, Sql.Token.Legible, true_and]
    exact Sql.allLegible_commaSeparated (List.forall_mem_map.mpr hitem)

end Query

end Listing
