import Listing.Proofs.Query.Frame
import Listing.Proofs.Sql.Resolved

namespace Listing

/-!
# Sound queries

Whatever a query is made of, its conditions are about columns of row sources that have been read as
identifiers.

* `Query.operand_resolved` — a field that becomes an operand is resolved;
* `Query.Joined`, `Query.joined_followFrom` — what joining along a path changes;
* `Query.Sound` — the base has an alias, and all conditions are about resolved operands;
* `Query.sound_ofEntity`, `Query.Sound.attach` and the lemmas beside it — an entity starts a sound
  query, and each operation keeps it sound.
-/

open Sql (Operand Condition)

/-! ### Operands -/

/-- A template over resolved operands is resolved. -/
theorem Sql.Operand.resolved_ofTemplate {t : Template} {xs : List Operand} {y : Operand}
    (hxs : ∀ x ∈ xs, x.Resolved) (h : Operand.ofTemplate? t xs = some y) : y.Resolved := by
  unfold ofTemplate? at h
  split at h <;> cases h <;> simp_all [Resolved]

namespace Query

variable {q : Query} {b : Binding} {x : Operand}

/-- A column becomes an operand only if its name reads as an identifier. -/
theorem columnOperand_resolved (hb : b.source.Assigned) {name : String}
    (h : columnOperand b name = .ok x) : x.Resolved := by
  unfold columnOperand at h
  split at h
  · rename_i ident hident
    cases h
    exact ⟨hb, name, hident⟩
  · cases h

/-- A field as it is written becomes a resolved operand, a computed one by its columns. -/
theorem writtenOperand_resolved (hb : b.source.Assigned) {field : Field}
    (h : writtenOperand b field = .ok x) : x.Resolved := by
  cases field with
  | column name => exact columnOperand_resolved hb h
  | computed template args =>
    obtain ⟨columns, hcolumns, hmore⟩ := Except.bind_ok h
    have hresolved : ∀ y ∈ columns, y.Resolved := by
      intro y hy
      obtain ⟨name, -, hname⟩ := Except.mapM_ok hcolumns y hy
      exact columnOperand_resolved hb hname
    -- a template makes an operand of the columns, or there are too few of them
    split at hmore
    · rename_i operand hoperand
      cases hmore
      exact Operand.resolved_ofTemplate hresolved hoperand
    · cases hmore

/-- A field that becomes an operand of a row source is resolved. -/
theorem operand_resolved (hb : b.source.Assigned) {field : Field}
    (h : q.operand b field = .ok x) : x.Resolved := writtenOperand_resolved hb h

end Query

/-! ### Conditions -/

namespace Sql.Condition

variable {lhs : Operand} {c d : Condition}

/-- A comparison of a resolved operand is resolved. -/
theorem resolved_compare (h : lhs.Resolved) (comparison : Comparison) (value : Term) :
    (compare lhs comparison value).Resolved := by
  intro x hx
  rw [List.mem_singleton.mp hx]
  exact h

/-- So is a membership, whatever the list. -/
theorem resolved_isIn (h : lhs.Resolved) (values : List Term) : (isIn lhs values).Resolved := by
  unfold isIn
  split
  · exact fun x hx => absurd hx List.not_mem_nil
  · exact resolved_compare h .eq .null

/-- So is its negation. -/
theorem resolved_isNotIn (h : lhs.Resolved) (values : List Term) :
    (isNotIn lhs values).Resolved := by
  unfold isNotIn
  split
  · exact fun x hx => absurd hx List.not_mem_nil
  · exact resolved_compare h .eq .null

/-- So are two bounds. -/
theorem resolved_between (h : lhs.Resolved) (low high : Term) :
    (between lhs low high).Resolved := by
  rw [between, resolved_all]
  exact List.forall_mem_cons.mpr ⟨resolved_compare h .gteq low,
    List.forall_mem_singleton.mpr (resolved_compare h .lteq high)⟩

/-- An alternative to a resolved condition is resolved if it is so itself. -/
theorem resolved_orElse (hc : c.Resolved) (hd : d.Resolved) : (c.orElse d).Resolved := by
  unfold orElse
  split
  · rename_i parts
    rw [resolved_any] at hc ⊢
    exact List.forall_mem_append.mpr ⟨hc, List.forall_mem_singleton.mpr hd⟩
  · rw [resolved_any]
    exact List.forall_mem_cons.mpr ⟨hc, List.forall_mem_singleton.mpr hd⟩

end Sql.Condition

/-- What an operator makes of a resolved operand is resolved. -/
theorem SearchOperator.condition_resolved {lhs : Operand} {operator : SearchOperator} {term : Term}
    {c : Condition} (hlhs : lhs.Resolved) (h : operator.condition lhs term = .ok c) :
    c.Resolved := by
  -- whatever the operator makes of the term, its one operand is the given one
  cases operator with
  | isNull =>
    simp only [condition] at h
    split at h <;> cases h
    exact Condition.resolved_compare hlhs .eq .null
  | isIn =>
    simp only [condition] at h
    split at h <;> cases h
    exact Condition.resolved_isIn hlhs _
  | notIn =>
    simp only [condition] at h
    split at h <;> cases h
    exact Condition.resolved_isNotIn hlhs _
  | between =>
    simp only [condition] at h
    split at h <;> cases h
    exact Condition.resolved_between hlhs _ _
  | like | ilike | eq | gt | lt | gteq | lteq =>
    cases h
    exact Condition.resolved_compare hlhs _ term

namespace Query

/-! ### Joins -/

/-- What a join changes: it adds one source, and nothing but sources and the fault. -/
structure Joined (q : Query) (reached : Query × Binding) : Prop where
  joins : q.joins <+: reached.1.joins
  conjuncts : reached.1.conjuncts = q.conjuncts
  base : reached.1.base = q.base
  source : reached.2.source.Assigned

/-- Adding a join adds a source with an alias. -/
theorem joined_addJoin (q : Query) (kind : JoinKind) (table entity : String) (on : Option JoinOn) :
    Joined q (q.addJoin kind table entity on) :=
  ⟨List.prefix_append q.joins _, rfl, rfl, table, q.joins.length + 1, rfl⟩

/-- A join adds one source, also where it fails. -/
theorem joined_join (q : Query) (kind : JoinKind) (owner : Binding) (relation : String) :
    Joined q (q.join kind owner relation) := by
  -- a failed join is noted before its source is added, and only the fault tells it apart
  unfold join
  split
  · obtain ⟨hjoins, hconjuncts, hbase, hsource⟩ :=
      joined_addJoin (q.note (.unknownRelation relation owner.entity)) kind
        (tableOfUnknown relation) relation none
    exact ⟨hjoins, hconjuncts, hbase, hsource⟩
  · rename_i a _
    split
    · obtain ⟨hjoins, hconjuncts, hbase, hsource⟩ :=
        joined_addJoin (q.note (.unknownTarget relation owner.entity a.target)) kind relation
          a.target none
      exact ⟨hjoins, hconjuncts, hbase, hsource⟩
    · exact joined_addJoin q kind _ a.target _

/-- Joining along a path adds sources, and reaches one with an alias. -/
theorem joined_followFrom (q : Query) {start : Binding} (hstart : start.source.Assigned)
    (path : JoinPath) : Joined q (q.followFrom start path) := by
  unfold followFrom
  induction path generalizing q start with
  | nil => exact ⟨List.prefix_refl _, rfl, rfl, hstart⟩
  | cons s rest ih =>
    -- a path starts at a source with an alias, and so does the rest of it
    have hfirst := joined_join q s.kind start s.relation
    have hrest := ih (q.join s.kind start s.relation).1 hfirst.source
    exact ⟨hfirst.joins.trans hrest.joins, hrest.conjuncts.trans hfirst.conjuncts,
      hrest.base.trans hfirst.base, hrest.source⟩

/-! ### Sound queries -/

/-- The base has an alias, and all conditions are about resolved operands. -/
structure Sound (q : Query) : Prop where
  base : q.base.source.Assigned
  resolved : ∀ conjunct ∈ q.conjuncts, conjunct.condition.Resolved

/-- All conditions of a sound query as one are about resolved operands. -/
theorem Sound.condition {q : Query} (h : q.Sound) : (merged q.conjuncts).Resolved := by
  have hparts := h.resolved
  unfold merged
  split
  · rename_i only heq
    exact hparts only (heq ▸ List.mem_cons_self)
  · rw [Condition.resolved_all]
    exact List.forall_mem_map.mpr hparts

/-- The rows of an entity are a sound query, as nothing is demanded of them. -/
theorem sound_ofEntity {registry : Registry} {name : String} {q : Query}
    (h : ofEntity registry name = .ok q) : q.Sound := by
  unfold ofEntity at h
  split at h
  · rename_i entity _
    cases h
    exact ⟨⟨entity.table, 0, rfl⟩, fun x hx => absurd hx List.not_mem_nil⟩
  · cases h

namespace Sound

variable {q : Query} {c : Condition}

/-- A query with more sources stays sound. -/
theorem joined {reached : Query × Binding} (hq : q.Sound) (h : Joined q reached) :
    reached.1.Sound := by
  refine ⟨?_, ?_⟩
  · rw [h.base]
    exact hq.base
  · rw [h.conjuncts]
    exact hq.resolved

/-- So does one with a condition on resolved operands. -/
theorem also (hq : q.Sound) (hc : c.Resolved) : (q.also c).Sound :=
  ⟨hq.base, List.forall_mem_append.mpr ⟨hq.resolved, List.forall_mem_singleton.mpr hc⟩⟩

/-- So does one with such an alternative to all its conditions. -/
theorem orElse (hq : q.Sound) (hc : c.Resolved) : (q.orElse c).Sound := by
  unfold Query.orElse
  split
  · exact hq.also hc
  · exact ⟨hq.base, List.forall_mem_singleton.mpr (Condition.resolved_orElse hq.condition hc)⟩

/-- So does one with such a condition of a search. -/
theorem tagged (hq : q.Sound) (tag : String) (hc : c.Resolved) : (q.tagged tag c).Sound :=
  ⟨hq.base, List.forall_mem_append.mpr ⟨hq.resolved, List.forall_mem_singleton.mpr hc⟩⟩

/-- Wherever a resolved condition is attached, the query stays sound. -/
theorem attach (hq : q.Sound) (tag : String) (combine : Combine) (hc : c.Resolved) :
    (q.attach tag combine c).Sound := by
  rcases q.attach_cases tag combine c with
    ⟨d, hd, hattach⟩ | ⟨before, x, after, hconjuncts, -, hattach⟩
  · rw [hattach]
    rcases hd with rfl | rfl
    · exact hq.tagged tag hc
    · exact hq.tagged tag (Condition.resolved_not.mpr hc)
  · rw [hattach]
    have hold := hq.resolved
    rw [hconjuncts, List.forall_mem_append, List.forall_mem_cons] at hold
    obtain ⟨hbefore, hx, hafter⟩ := hold
    exact ⟨hq.base, List.forall_mem_append.mpr
      ⟨hbefore, List.forall_mem_cons.mpr ⟨Condition.resolved_orElse hx hc, hafter⟩⟩⟩

end Sound

end Query

end Listing
