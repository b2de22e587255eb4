import Listing.Proofs.Query.Scope
import Listing.Proofs.Stage.Wire

namespace Listing

/-!
# Histories of queries

A query is made of an entity by operations and by hooks, and each of these asks for joins.  What a
join comes to depends on the registry and on what is asked for, and on nothing that was made before:
so the tables of a query and its fault can be told from the joins alone that were asked for.

* `JoinRequest`, `Registry.Joinable` — a join that is asked for, and one that can be made;
* `Registry.faultOf`, `Registry.tableOf`, `Registry.reached` — the fault of a requested join, its
  table, and the entity that it leads to;
* `Registry.along` — the joins that following a path asks for;
* `Query.Grows` — a query with some requested joins made;
* `Edit`, `Query.editAll` — one step in the making of a query, and the steps of a history;
* `Edit.requests`, `Edit.Joinless`, `Edit.Resolved` — the joins that a step asks for, the steps that
  ask for none, and those with conditions on resolved operands;
* `Query.edit_frame` — what a step without joins leaves as it is;
* `Query.grows_editAll` — a history makes the joins that its steps ask for;
* `Query.sound_editAll` — a history on resolved operands keeps a query sound.
-/

open Sql (Condition)

/-- A join that is asked for: along a relation of an entity. -/
structure JoinRequest where
  entity : String
  relation : String
  deriving DecidableEq, Repr

/-! ### Joins by registry -/

namespace Registry

variable {r : Registry} {j : JoinRequest}

/-- The association that a requested join goes along. -/
def association? (r : Registry) (j : JoinRequest) : Option Association :=
  (r.get? j.entity).bind fun entity => entity.association? j.relation

/-- What is wrong with a requested join. -/
def faultOf (r : Registry) (j : JoinRequest) : Option JoinFault :=
  match r.association? j with
  | none => some (.unknownRelation j.relation j.entity)
  | some a =>
    match r.get? a.target with
    | none => some (.unknownTarget j.relation j.entity a.target)
    | some _ => none

/-- The table that a requested join adds. -/
def tableOf (r : Registry) (j : JoinRequest) : String :=
  match r.association? j with
  | none => Query.tableOfUnknown j.relation
  | some a =>
    match r.get? a.target with
    | none => j.relation
    | some target => target.table

/-- The entity that a requested join leads to. -/
def reached (r : Registry) (j : JoinRequest) : String :=
  match r.association? j with
  | none => j.relation
  | some a => a.target

/-- The relation is an association of the entity, and its target is registered. -/
def Joinable (r : Registry) (j : JoinRequest) : Prop :=
  ∃ source a, r.get? j.entity = some source ∧ source.association? j.relation = some a ∧
    r.contains a.target = true

/-- The association of a request is that of its entity, if the entity is registered. -/
theorem association?_eq_some_iff {a : Association} : r.association? j = some a ↔
    ∃ source, r.get? j.entity = some source ∧ source.association? j.relation = some a :=
  Option.bind_eq_some_iff

/-- A requested join is at fault unless it can be made. -/
theorem faultOf_eq_none_iff : r.faultOf j = none ↔ r.Joinable j := by
  constructor
  · intro h
    -- there are two faults, of the association and of its target
    unfold faultOf at h
    split at h
    · cases h
    · rename_i a ha
      obtain ⟨source, hsource, hrelation⟩ := association?_eq_some_iff.mp ha
      split at h
      · cases h
      · rename_i target htarget
        exact ⟨source, a, hsource, hrelation, by rw [contains, htarget]; rfl⟩
  · rintro ⟨source, a, hsource, hrelation, hcontains⟩
    have ha : r.association? j = some a :=
      association?_eq_some_iff.mpr ⟨source, hsource, hrelation⟩
    obtain ⟨target, htarget⟩ := Option.isSome_iff_exists.mp hcontains
    rw [faultOf, ha]
    simp only
    rw [htarget]

/-- The joins that following a path from an entity asks for, each from where the one before leads
to. -/
def along (r : Registry) (entity : String) : JoinPath → List JoinRequest
  | [] => []
  | s :: rest => ⟨entity, s.relation⟩ :: r.along (r.reached ⟨entity, s.relation⟩) rest

end Registry

/-! ### Queries with joins made -/

namespace Query

variable {q r s : Query} {requests more : List JoinRequest}

/-- `r` is `q` with the requested joins made, in order: their tables are added, and the first fault
among them is noted, unless there is one already. -/
structure Grows (q : Query) (requests : List JoinRequest) (r : Query) : Prop where
  registry_eq : r.registry = q.registry
  base_eq : r.base = q.base
  entity_eq : r.entity = q.entity
  tables_eq : r.joins.map Join.table = q.joins.map Join.table ++ requests.map q.registry.tableOf
  fault_eq : r.fault = q.fault.or (requests.findSome? q.registry.faultOf)

/-- A query has no join made by nothing. -/
theorem grows_refl (q : Query) : q.Grows [] q := ⟨rfl, rfl, rfl, by simp, by simp⟩

/-- A query with the same sources and the same fault has no join more. -/
theorem grows_of_eq (hregistry : r.registry = q.registry) (hbase : r.base = q.base)
    (hentity : r.entity = q.entity) (hjoins : r.joins = q.joins) (hfault : r.fault = q.fault) :
    q.Grows [] r := ⟨hregistry, hbase, hentity, by simp [hjoins], by simp [hfault]⟩

/-- Joins are made one after the other. -/
theorem Grows.trans (h : q.Grows requests r) (hmore : r.Grows more s) :
    q.Grows (requests ++ more) s := by
  refine ⟨hmore.registry_eq.trans h.registry_eq, hmore.base_eq.trans h.base_eq,
    hmore.entity_eq.trans h.entity_eq, ?_, ?_⟩
  · rw [hmore.tables_eq, h.tables_eq, h.registry_eq, List.map_append, List.append_assoc]
  · -- the earlier fault goes first, and it is the earlier requests that come first
    rw [hmore.fault_eq, h.fault_eq, h.registry_eq, List.findSome?_append, Option.or_assoc]

/-- One join is the join that is asked for, and leads to where that does. -/
theorem grows_join (q : Query) (kind : JoinKind) (owner : Binding) (relation : String) :
    q.Grows [⟨owner.entity, relation⟩] (q.join kind owner relation).1 ∧
      (q.join kind owner relation).2.entity = q.registry.reached ⟨owner.entity, relation⟩ := by
  have hassociation : (q.entityOf owner).bind (fun entity => entity.association? relation) =
      q.registry.association? ⟨owner.entity, relation⟩ := rfl
  rw [join, hassociation]
  -- the three outcomes of a join, which the registry alone tells apart
  cases ha : q.registry.association? ⟨owner.entity, relation⟩ with
  | none =>
    simp only
    refine ⟨⟨rfl, rfl, rfl, ?_, ?_⟩, ?_⟩
    · simp [note, addJoin, Registry.tableOf, ha]
    · simp [note, addJoin, Registry.faultOf, ha]
    · simp [addJoin, Registry.reached, ha]
  | some a =>
    simp only
    cases htarget : q.registry.get? a.target with
    | none =>
      simp only
      refine ⟨⟨rfl, rfl, rfl, ?_, ?_⟩, ?_⟩
      · simp [note, addJoin, Registry.tableOf, ha, htarget]
      · simp [note, addJoin, Registry.faultOf, ha, htarget]
      · simp [addJoin, Registry.reached, ha]
    | some target =>
      simp only
      refine ⟨⟨rfl, rfl, rfl, ?_, ?_⟩, ?_⟩
      · simp [addJoin, Registry.tableOf, ha, htarget]
      · simp [addJoin, Registry.faultOf, ha, htarget]
      · simp [addJoin, Registry.reached, ha]

/-- A path makes the joins that are asked for along it. -/
theorem grows_followFrom (q : Query) (start : Binding) (path : JoinPath) :
    q.Grows (q.registry.along start.entity path) (q.followFrom start path).1 := by
  unfold followFrom
  -- each step goes on from the row source that the one before has reached, also if that failed
  induction path generalizing q start with
  | nil => exact grows_refl q
  | cons s rest ih =>
    obtain ⟨hfirst, hreached⟩ := grows_join q s.kind start s.relation
    have hrest := ih (q.join s.kind start s.relation).1 (q.join s.kind start s.relation).2
    rw [hreached, hfirst.registry_eq] at hrest
    exact hfirst.trans hrest

/-- Attaching a condition makes no join. -/
theorem grows_attach (q : Query) (tag : String) (combine : Combine) (c : Condition) :
    q.Grows [] (q.attach tag combine c) := by
  obtain ⟨conjuncts, hattach⟩ := q.attach_frame tag combine c
  rw [hattach]
  exact grows_of_eq rfl rfl rfl rfl rfl

/-- Steps that each make the joins they ask for make all of them, one step after the other. -/
theorem grows_foldlM {α : Type} {step : Query → α → Except Error Query}
    (asked : Registry → String → α → List JoinRequest)
    (hstep : ∀ q x r, step q x = .ok r → q.Grows (asked q.registry q.base.entity x) r) {xs : List α}
    (h : xs.foldlM step q = .ok r) : q.Grows (xs.flatMap (asked q.registry q.base.entity)) r := by
  induction xs generalizing q with
  | nil =>
    cases h
    exact grows_refl _
  | cons x rest ih =>
    rw [List.foldlM_cons] at h
    obtain ⟨s, hs, h⟩ := Except.bind_ok h
    have hfirst := hstep q x s hs
    have hrest := ih h
    -- the registry and the base have stayed, so the others ask for the same joins as before
    rw [hfirst.registry_eq, hfirst.base_eq] at hrest
    rw [List.flatMap_cons]
    exact hfirst.trans hrest

end Query

/-! ### Hooks -/

/-- The path that a search by the criterion follows; a blank term is passed over. -/
def Criterion.followed (c : Criterion) : JoinPath := if c.term.isBlank then [] else c.path

/-- The path that a lenient search by the criterion follows; a term of the wrong shape is passed
over too, and a pattern has wildcards by then. -/
def Criterion.followedLeniently (c : Criterion) : JoinPath :=
  match c.check with
  | .ok _ => c.withWildcards.followed
  | .error _ => []

/-- The path that ordering by the key follows; a key without a direction is passed over. -/
def SortKey.followed (key : SortKey) : JoinPath := if key.direction.isNone then [] else key.path

namespace Query

variable {q r : Query}

/-- A criterion makes the joins of the path that it follows. -/
theorem grows_search {c : Criterion} (h : q.search c = .ok r) :
    q.Grows (q.registry.along q.base.entity c.followed) r := by
  rcases search_ok h with ⟨hblank, rfl⟩ | ⟨hblank, -, operand, condition, -, -, rfl⟩
  · rw [Criterion.followed, if_pos hblank]
    exact grows_refl _
  · have hpath : c.followed = c.path := by simp [Criterion.followed, hblank]
    have hattach := grows_attach (q.follow c.path).1 c.tag c.combine condition
    have hall := (grows_followFrom q q.base c.path).trans hattach
    rw [List.append_nil] at hall
    rw [hpath]
    exact hall

/-- So does a criterion of a lenient search, which follows no path if its term does not fit. -/
theorem grows_searchLeniently {c : Criterion} (h : q.searchLeniently c = .ok r) :
    q.Grows (q.registry.along q.base.entity c.followedLeniently) r := by
  unfold searchLeniently at h
  unfold Criterion.followedLeniently
  cases hcheck : c.check with
  | ok _ =>
    rw [hcheck] at h
    exact grows_search h
  | error _ =>
    rw [hcheck] at h
    cases h
    exact grows_refl _

/-- So does a key, which follows no path without a direction. -/
theorem grows_sort {key : SortKey} (h : q.sort key = .ok r) :
    q.Grows (q.registry.along q.base.entity key.followed) r := by
  rcases sort_ok h with ⟨hnone, rfl⟩ | ⟨direction, operand, hsome, -, rfl⟩
  · simp only [SortKey.followed, hnone, Option.isNone_none, if_true]
    exact grows_refl _
  · have hpath : key.followed = key.path := by simp [SortKey.followed, hsome]
    have hall := (grows_followFrom q q.base key.path).trans
      (grows_of_eq (r := (q.follow key.path).1.orderBy
        (if key.ignoreCase then .lower operand else operand) direction) rfl rfl rfl rfl rfl)
    rw [List.append_nil] at hall
    rw [hpath]
    exact hall

/-- A page makes no join. -/
theorem grows_page (q : Query) (p : OffsetPage) : q.Grows [] (q.page p) :=
  grows_of_eq rfl rfl rfl rfl rfl

/-- Nor does a page by key. -/
theorem grows_pageAfter {p : KeysetPage} (h : q.pageAfter p = .ok r) : q.Grows [] r := by
  rcases pageAfter_ok h with ⟨-, rfl⟩ | ⟨-, key, -, rfl⟩
  · exact grows_of_eq rfl rfl rfl rfl rfl
  · exact grows_of_eq rfl rfl rfl rfl rfl

end Query

namespace Builtin

/-- The paths from the base that a hook follows. -/
def followed : (b : Builtin) → b.Parameters → List JoinPath
  | search => fun criteria => criteria.map fun entry => entry.2.followed
  | lenientSearch => fun criteria => criteria.map fun entry => entry.2.followedLeniently
  | sort | lenientSort => fun keys => keys.map SortKey.followed
  | offsetPage | keysetPage => fun _ => []

/-- The joins that a hook asks for, from an entity, with the parameters of a document. -/
def requests (b : Builtin) (registry : Registry) (entity : String) (document : Json) :
    List JoinRequest :=
  match b.decode document with
  | .ok p => (b.followed p).flatMap (registry.along entity)
  | .error _ => []

variable {q r : Query}

/-- A hook makes the joins along the paths that its parameters follow. -/
theorem grows_apply {b : Builtin} {p : b.Parameters} (h : b.apply q p = .ok r) :
    q.Grows ((b.followed p).flatMap (q.registry.along q.base.entity)) r := by
  cases b with
  | search =>
    -- the paths of all criteria start from the base, which no criterion changes
    rw [followed, List.flatMap_map]
    exact Query.grows_foldlM (fun registry entity entry => registry.along entity entry.2.followed)
      (fun _ _ _ hstep => Query.grows_search hstep) h
  | lenientSearch =>
    rw [followed, List.flatMap_map]
    exact Query.grows_foldlM
      (fun registry entity entry => registry.along entity entry.2.followedLeniently)
      (fun _ _ _ hstep => Query.grows_searchLeniently hstep) h
  | sort | lenientSort =>
    rw [followed, List.flatMap_map]
    exact Query.grows_foldlM (fun registry entity key => registry.along entity key.followed)
      (fun _ _ _ hstep => Query.grows_sort hstep) h
  | offsetPage =>
    cases h
    exact Query.grows_page q p
  | keysetPage => exact Query.grows_pageAfter h

/-- A hook makes the joins that the parameters of its document ask for. -/
theorem grows_run {b : Builtin} {document : Json} (h : b.run q document = .ok r) :
    q.Grows (b.requests q.registry q.base.entity document) r := by
  obtain ⟨p, hdecode, happly⟩ := run_ok h
  rw [requests, hdecode]
  exact grows_apply happly

end Builtin

/-! ### Histories -/

/-- One step in the making of a query: an operation, or a hook with a document of parameters. -/
inductive Edit
  | join (kind : JoinKind) (owner : Binding) (relation : String)
  | also (c : Condition)
  | orElse (c : Condition)
  | butNot (c : Condition)
  | attach (tag : String) (combine : Combine) (c : Condition)
  | orderBy (operand : Sql.Operand) (direction : Direction)
  | withLimit (n : Int64)
  | withOffset (n : Int64)
  | run (hook : Builtin) (document : Json)

/-- The joins that a step asks for; only a hook needs to know the base entity. -/
def Edit.requests (registry : Registry) (entity : String) : Edit → List JoinRequest
  | join _ owner relation => [⟨owner.entity, relation⟩]
  | run hook document => hook.requests registry entity document
  | _ => []

/-- The step is an operation that makes no join. -/
def Edit.Joinless : Edit → Prop
  | join .. | run .. => False
  | _ => True

/-- What the step says of rows is about resolved operands; a hook resolves its fields itself. -/
def Edit.Resolved : Edit → Prop
  | also c | orElse c | butNot c | attach _ _ c => c.Resolved
  | _ => True

namespace Query

variable {q r : Query}

/-- The query after one step. -/
def edit (q : Query) : Edit → Except Error Query
  | .join kind owner relation => .ok (q.join kind owner relation).1
  | .also c => .ok (q.also c)
  | .orElse c => .ok (q.orElse c)
  | .butNot c => .ok (q.butNot c)
  | .attach tag combine c => .ok (q.attach tag combine c)
  | .orderBy operand direction => .ok (q.orderBy operand direction)
  | .withLimit n => .ok (q.withLimit n)
  | .withOffset n => .ok (q.withOffset n)
  | .run hook document => hook.run q document

/-- The query after some steps. -/
def editAll (q : Query) (edits : List Edit) : Except Error Query := edits.foldlM edit q

/-- An operation that makes no join changes the conditions, the ordering and the window alone. -/
theorem edit_frame {e : Edit} (h : q.edit e = .ok r) (he : e.Joinless) :
    ∃ conjuncts order limit offset, r = { q with conjuncts, order, limit, offset } := by
  cases e with
  | join | run => exact he.elim
  | orElse c =>
    cases h
    unfold orElse
    split
    · exact ⟨_, _, _, _, rfl⟩
    · exact ⟨_, _, _, _, rfl⟩
  | attach tag combine c =>
    cases h
    obtain ⟨conjuncts, hattach⟩ := q.attach_frame tag combine c
    exact ⟨conjuncts, _, _, _, hattach⟩
  | also | butNot | orderBy | withLimit | withOffset =>
    cases h
    exact ⟨_, _, _, _, rfl⟩

/-- A step makes the joins that it asks for. -/
theorem grows_edit {e : Edit} (h : q.edit e = .ok r) :
    q.Grows (e.requests q.registry q.base.entity) r := by
  cases e with
  | join kind owner relation =>
    cases h
    exact (grows_join q kind owner relation).1
  | run hook document => exact Builtin.grows_run h
  | _ =>
    obtain ⟨conjuncts, order, limit, offset, rfl⟩ := edit_frame h trivial
    exact grows_of_eq rfl rfl rfl rfl rfl

/-- A step on resolved operands keeps a query sound. -/
theorem sound_edit {e : Edit} (he : e.Resolved) (hq : q.Sound) (h : q.edit e = .ok r) :
    r.Sound := by
  cases e with
  | run hook document => exact (Extends.run hq.base h).sound hq
  | join kind owner relation =>
    cases h
    -- a join adds a row source and leaves the conditions
    exact hq.joined (joined_join q kind owner relation)
  | also c =>
    cases h
    exact hq.also he
  | orElse c =>
    cases h
    exact hq.orElse he
  | butNot c =>
    cases h
    exact hq.also (Condition.resolved_not.mpr he)
  | attach tag combine c =>
    cases h
    exact hq.attach tag combine he
  | orderBy | withLimit | withOffset =>
    cases h
    exact ⟨hq.base, hq.resolved⟩

/-- So does a history of such steps. -/
theorem sound_editAll {edits : List Edit} (hedits : ∀ e ∈ edits, e.Resolved) (hq : q.Sound)
    (h : q.editAll edits = .ok r) : r.Sound :=
  Except.foldlM_ok (P := Sound) (fun e he _ _ hs hstep => sound_edit (hedits e he) hs hstep) hq h

/-- A history makes the joins that its steps ask for, and no other. -/
theorem grows_editAll {edits : List Edit} (h : q.editAll edits = .ok r) :
    q.Grows (edits.flatMap (Edit.requests q.registry q.base.entity)) r :=
  grows_foldlM Edit.requests (fun _ _ _ hstep => grows_edit hstep) h

/-- The rows of an entity have no join and no fault. -/
theorem ofEntity_ok {registry : Registry} {name : String} (h : ofEntity registry name = .ok q) :
    registry.get? name = some q.entity ∧ q.registry = registry ∧ q.base.entity = name ∧
      q.joins = [] ∧ q.fault = none := by
  unfold ofEntity at h
  split at h
  · rename_i entity hentity
    cases h
    exact ⟨hentity, rfl, rfl, rfl, rfl⟩
  · cases h

/-- The sources of a query that is made of an entity are those of the joins that its history asked
for, and its fault is the first among theirs. -/
theorem history_ok {registry : Registry} {name : String} {edits : List Edit}
    (hstart : ofEntity registry name = .ok q) (hedits : q.editAll edits = .ok r) :
    registry.get? name = some r.entity ∧
      r.joins.map Join.table =
        (edits.flatMap (Edit.requests registry name)).map registry.tableOf ∧
      r.fault = (edits.flatMap (Edit.requests registry name)).findSome? registry.faultOf := by
  obtain ⟨hentity, hregistry, hbase, hjoins, hfault⟩ := ofEntity_ok hstart
  have hgrows := grows_editAll hedits
  rw [hregistry, hbase] at hgrows
  refine ⟨?_, ?_, ?_⟩
  · rw [hgrows.entity_eq]
    exact hentity
  · simpa [hjoins, hregistry] using hgrows.tables_eq
  · simpa [hfault, hregistry] using hgrows.fault_eq

end Query

end Listing
