import Listing.Page.Stage
import Listing.Proofs.Outcome
import Listing.Search.Compile
import Listing.Sort.Compile

namespace Listing

/-!
# What an operation leaves as it is

A join changes the joins and the fault of a query, a search besides these the conditions, an
ordering the keys of the ordering, a page the window.  So the entity always stays, and where a
window is set makes no difference to the rest.

* `Query.orLast_eq_some_iff`, `Query.attach_cases` — which condition takes an alternative, and where
  a condition of a search goes;
* `Query.follow_frame`, `Query.attach_frame` — the parts that the two building steps change;
* `Query.search_ok`, `Query.sort_ok`, `Query.pageAfter_ok` — what a criterion, a key and a page by
  key do when they are accepted, with `Query.search_of_condition`, when a criterion is;
* `Query.entity_search` and the lemmas beside it — every operation keeps the entity;
* `Query.BesideJoins` — changes of a query that joins do not look at, with `BesideJoins.followFrom`;
* `Query.repaged`, `Query.SameRows` — a query with another window, and queries that differ in
  nothing else;
* `Query.search_repaged` and the lemmas beside it — a search and an ordering do the same to a query
  with another window;
* `Query.pageAfter_sameRows` — a page by key keeps queries that differ in their windows;
* `Query.page_repaged` — a page replaces the whole window.
-/

open Sql (Condition)

namespace Query

variable {q r : Query} {tag : String} {c : Condition} {xs ys : List Conjunct}

/-! ### The last condition of a tag -/

/-- No condition takes an alternative exactly if none has the tag. -/
theorem orLast_eq_none_iff : orLast tag c xs = none ↔ ∀ x ∈ xs, x.tag ≠ some tag := by
  induction xs with
  | nil => simp [orLast]
  | cons x rest ih =>
    rw [orLast, List.forall_mem_cons, ← ih]
    cases orLast tag c rest with
    | some changed => simp
    | none => simp

/-- The last condition of the tag takes the alternative, and the others stay as they are. -/
theorem orLast_eq_some_iff : orLast tag c xs = some ys ↔
    ∃ before x after, xs = before ++ x :: after ∧ x.tag = some tag ∧
      (∀ y ∈ after, y.tag ≠ some tag) ∧
      ys = before ++ ⟨x.tag, x.condition.orElse c⟩ :: after := by
  constructor
  · intro h
    induction xs generalizing ys with
    | nil => cases h
    | cons x rest ih =>
      rw [orLast] at h
      split at h
      · rename_i changed hchanged
        cases h
        obtain ⟨before, y, after, rfl, hy, hafter, rfl⟩ := ih hchanged
        exact ⟨x :: before, y, after, rfl, hy, hafter, rfl⟩
      · rename_i hnone
        -- the condition that is changed is the last of its tag, as there is none in the rest
        split at h
        · rename_i hx
          cases h
          exact ⟨[], x, rest, rfl, hx, orLast_eq_none_iff.mp hnone, rfl⟩
        · cases h
  · rintro ⟨before, x, after, rfl, hx, hafter, rfl⟩
    induction before with
    | nil => rw [List.nil_append, orLast, orLast_eq_none_iff.mpr hafter, if_pos hx]; rfl
    | cons first before ih => rw [List.cons_append, orLast, ih]; rfl

/-- A condition that is attached goes last under the tag, as it is or negated, or it becomes an
alternative to a condition of the tag. -/
theorem attach_cases (q : Query) (tag : String) (combine : Combine) (c : Condition) :
    (∃ d, (d = c ∨ d = .not c) ∧ q.attach tag combine c = q.tagged tag d) ∨
      ∃ before x after, q.conjuncts = before ++ x :: after ∧ x.tag = some tag ∧
        q.attach tag combine c =
          { q with conjuncts := before ++ ⟨x.tag, x.condition.orElse c⟩ :: after } := by
  cases combine with
  | and => exact .inl ⟨c, .inl rfl, rfl⟩
  | andNot => exact .inl ⟨.not c, .inr rfl, rfl⟩
  | or =>
    unfold attach
    simp only
    split
    · rename_i changed hchanged
      obtain ⟨before, x, after, hconjuncts, hx, -, rfl⟩ := orLast_eq_some_iff.mp hchanged
      exact .inr ⟨before, x, after, hconjuncts, hx, rfl⟩
    · -- with nothing to be an alternative to, it is a condition like others
      exact .inl ⟨c, .inl rfl, rfl⟩

/-! ### Parts that change -/

/-- A join changes the joins and the fault. -/
theorem join_frame (q : Query) (kind : JoinKind) (owner : Binding) (relation : String) :
    ∃ joins fault, (q.join kind owner relation).1 = { q with joins, fault } := by
  unfold join
  split
  · exact ⟨_, _, rfl⟩
  · split
    · exact ⟨_, _, rfl⟩
    · exact ⟨_, _, rfl⟩

/-- Joining along a path changes the joins and the fault. -/
theorem followFrom_frame (q : Query) (start : Binding) (path : JoinPath) :
    ∃ joins fault, (q.followFrom start path).1 = { q with joins, fault } := by
  unfold followFrom
  induction path generalizing q start with
  | nil => exact ⟨_, _, rfl⟩
  | cons s rest ih =>
    obtain ⟨joins, fault, hfirst⟩ := join_frame q s.kind start s.relation
    -- the frame of the rest of the path is that of the query after the first step
    obtain ⟨joins', fault', hrest⟩ :=
      ih (q.join s.kind start s.relation).1 (q.join s.kind start s.relation).2
    refine ⟨joins', fault', ?_⟩
    rw [List.foldl_cons]
    show (List.foldl step (q.join s.kind start s.relation) rest).1 = _
    rw [hrest, hfirst]

/-- So does a path from the base. -/
theorem follow_frame (q : Query) (path : JoinPath) :
    ∃ joins fault, (q.follow path).1 = { q with joins, fault } := followFrom_frame q q.base path

/-- Attaching a condition changes the conditions. -/
theorem attach_frame (q : Query) (tag : String) (combine : Combine) (c : Condition) :
    ∃ conjuncts, q.attach tag combine c = { q with conjuncts } := by
  rcases q.attach_cases tag combine c with ⟨d, -, hattach⟩ | ⟨before, x, after, -, -, hattach⟩
  · exact ⟨_, hattach⟩
  · exact ⟨_, hattach⟩

/-! ### What a step does -/

/-- A criterion that is accepted has a blank term, or joins its path and attaches its condition. -/
theorem search_ok {c : Criterion} (h : q.search c = .ok r) :
    (c.term.isBlank = true ∧ r = q) ∨
      (c.term.isBlank = false ∧ c.check = .ok () ∧ ∃ operand condition,
        (q.follow c.path).1.operand (q.follow c.path).2 c.field = .ok operand ∧
        c.operator.condition operand c.term = .ok condition ∧
        r = (q.follow c.path).1.attach c.tag c.combine condition) := by
  unfold search at h
  split at h
  · rename_i hblank
    exact .inl ⟨hblank, (Except.ok.inj h).symm⟩
  · rename_i hblank
    -- the steps of a search in order, each of which has succeeded
    obtain ⟨_, hcheck, h⟩ := Except.bind_ok h
    obtain ⟨operand, hoperand, h⟩ := Except.bind_ok h
    obtain ⟨condition, hcondition, h⟩ := Except.bind_ok h
    exact .inr ⟨by simpa using hblank, hcheck, operand, condition, hoperand, hcondition,
      (Except.ok.inj h).symm⟩

/-- A criterion is accepted if its term fits, its field is resolved and its condition written. -/
theorem search_of_condition {c : Criterion} {operand : Sql.Operand} {condition : Condition}
    (hblank : c.term.isBlank = false) (hcheck : c.check = .ok ())
    (hoperand : (q.follow c.path).1.operand (q.follow c.path).2 c.field = .ok operand)
    (hcondition : c.operator.condition operand c.term = .ok condition) :
    q.search c = .ok ((q.follow c.path).1.attach c.tag c.combine condition) := by
  rw [search, hblank, hcheck]
  show ((q.follow c.path).1.operand (q.follow c.path).2 c.field >>= _) = _
  rw [hoperand]
  show (c.operator.condition operand c.term >>= _) = _
  rw [hcondition]
  rfl

/-- A key that is accepted has no direction, or joins its path and goes last in the ordering. -/
theorem sort_ok {key : SortKey} (h : q.sort key = .ok r) :
    (key.direction = none ∧ r = q) ∨ ∃ direction operand, key.direction = some direction ∧
      (q.follow key.path).1.operand (q.follow key.path).2 key.field = .ok operand ∧
      r = (q.follow key.path).1.orderBy (if key.ignoreCase then .lower operand else operand)
        direction := by
  unfold sort at h
  -- without a direction there is nothing to resolve, and no error
  split at h
  · rename_i hnone
    exact .inl ⟨hnone, (Except.ok.inj h).symm⟩
  · rename_i direction hsome
    obtain ⟨operand, hoperand, h⟩ := Except.bind_ok h
    exact .inr ⟨direction, operand, hsome, hoperand, (Except.ok.inj h).symm⟩

/-- A page by key adds its condition, unless the last key is blank, and takes the limit anew. -/
theorem pageAfter_ok {p : KeysetPage} (h : q.pageAfter p = .ok r) :
    (p.lastSeenKey.isBlank = true ∧ r = q.withLimit (max p.perPage 1)) ∨
      (p.lastSeenKey.isBlank = false ∧ ∃ key, columnOperand q.base p.keyField = .ok key ∧
        r = (q.also (.compare key .gt p.lastSeenKey)).withLimit (max p.perPage 1)) := by
  obtain ⟨s, hafter, rfl⟩ := Except.map_ok h
  unfold after at hafter
  split at hafter
  · rename_i hblank
    cases hafter
    exact .inl ⟨hblank, rfl⟩
  · rename_i hblank
    obtain ⟨key, hkey, rfl⟩ := Except.map_ok hafter
    exact .inr ⟨by simpa using hblank, key, hkey, rfl⟩

/-- A search changes joins, conditions and the fault. -/
theorem search_frame {c : Criterion} (h : q.search c = .ok r) :
    ∃ joins conjuncts fault, r = { q with joins, conjuncts, fault } := by
  rcases search_ok h with ⟨-, rfl⟩ | ⟨-, -, operand, condition, -, -, rfl⟩
  · exact ⟨_, _, _, rfl⟩
  · obtain ⟨joins, fault, hfollow⟩ := q.follow_frame c.path
    obtain ⟨conjuncts, hattach⟩ := attach_frame (q.follow c.path).1 c.tag c.combine condition
    rw [hattach, hfollow]
    exact ⟨_, _, _, rfl⟩

/-- A lenient search changes no more than a strict one. -/
theorem searchLeniently_frame {c : Criterion} (h : q.searchLeniently c = .ok r) :
    ∃ joins conjuncts fault, r = { q with joins, conjuncts, fault } := by
  unfold searchLeniently at h
  split at h
  · exact search_frame h
  · cases h
    exact ⟨_, _, _, rfl⟩

/-- An ordering changes joins, keys and the fault. -/
theorem sort_frame {key : SortKey} (h : q.sort key = .ok r) :
    ∃ joins order fault, r = { q with joins, order, fault } := by
  rcases sort_ok h with ⟨-, rfl⟩ | ⟨direction, operand, -, -, rfl⟩
  · exact ⟨_, _, _, rfl⟩
  · obtain ⟨joins, fault, hfollow⟩ := q.follow_frame key.path
    rw [hfollow]
    exact ⟨_, _, _, rfl⟩

/-! ### The entity -/

/-- A search keeps the entity. -/
theorem entity_search {c : Criterion} (h : q.search c = .ok r) : r.entity = q.entity := by
  obtain ⟨joins, conjuncts, fault, rfl⟩ := search_frame h
  rfl

/-- An ordering keeps the entity. -/
theorem entity_sort {key : SortKey} (h : q.sort key = .ok r) : r.entity = q.entity := by
  obtain ⟨joins, order, fault, rfl⟩ := sort_frame h
  rfl

/-- A page by key keeps the entity. -/
theorem entity_pageAfter {p : KeysetPage} (h : q.pageAfter p = .ok r) : r.entity = q.entity := by
  rcases pageAfter_ok h with ⟨-, rfl⟩ | ⟨-, key, -, rfl⟩
  · rfl
  · rfl

/-! ### What joins do not look at -/

/-- A change of queries that joins do not look at, and do not touch. -/
structure BesideJoins (f : Query → Query) : Prop where
  registry_eq : ∀ q, (f q).registry = q.registry
  note : ∀ q fault, (f q).note fault = f (q.note fault)
  addJoin : ∀ q kind table entity on, (f q).addJoin kind table entity on =
    (f (q.addJoin kind table entity on).1, (q.addJoin kind table entity on).2)

namespace BesideJoins

variable {f : Query → Query}

/-- A join does the same to the changed query, and reaches the same row source. -/
theorem join (hf : BesideJoins f) (q : Query) (kind : JoinKind) (owner : Binding)
    (relation : String) :
    (f q).join kind owner relation =
      (f (q.join kind owner relation).1, (q.join kind owner relation).2) := by
  have hentity : (f q).entityOf owner = q.entityOf owner := by
    rw [entityOf, hf.registry_eq]
    rfl
  rw [Query.join, Query.join, hentity, hf.registry_eq]
  -- the three outcomes of a join, which are told apart in the registry
  cases (q.entityOf owner).bind fun entity => entity.association? relation with
  | none =>
    simp only
    rw [hf.note, hf.addJoin]
  | some a =>
    simp only
    cases q.registry.get? a.target with
    | none =>
      simp only
      rw [hf.note, hf.addJoin]
    | some target => exact hf.addJoin q _ _ _ _

/-- So does a path. -/
theorem followFrom (hf : BesideJoins f) (q : Query) (start : Binding) (path : JoinPath) :
    (f q).followFrom start path = (f (q.followFrom start path).1, (q.followFrom start path).2) := by
  unfold Query.followFrom
  induction path generalizing q start with
  | nil => rfl
  | cons s rest ih =>
    rw [List.foldl_cons, List.foldl_cons]
    show List.foldl step ((f q).join s.kind start s.relation) rest = _
    rw [hf.join, ih]
    rfl

end BesideJoins

/-! ### The window -/

/-- The query with another window. -/
def repaged (q : Query) (limit offset : Option Int64) : Query := { q with limit, offset }

/-- The queries differ in their windows at most. -/
def SameRows (q r : Query) : Prop := ∃ limit offset, r = q.repaged limit offset

/-- Every query has its own rows. -/
theorem sameRows_refl (q : Query) : q.SameRows q := ⟨q.limit, q.offset, rfl⟩

/-- Queries that differ in their windows are of one entity. -/
theorem SameRows.entity_eq (h : q.SameRows r) : r.entity = q.entity := by
  obtain ⟨limit, offset, rfl⟩ := h
  rfl

variable (limit offset : Option Int64)

/-- Joins do not look at the window. -/
theorem besideJoins_repaged : BesideJoins fun q => q.repaged limit offset :=
  ⟨fun _ => rfl, fun _ _ => rfl, fun _ _ _ _ _ => rfl⟩

/-- A path does the same to a query with another window. -/
theorem follow_repaged (q : Query) (path : JoinPath) :
    (q.repaged limit offset).follow path =
      ((q.follow path).1.repaged limit offset, (q.follow path).2) :=
  (besideJoins_repaged limit offset).followFrom q q.base path

/-- So does attaching a condition. -/
theorem attach_repaged (q : Query) (tag : String) (combine : Combine) (c : Condition) :
    (q.repaged limit offset).attach tag combine c =
      (q.attach tag combine c).repaged limit offset := by
  cases combine with
  | and => rfl
  | andNot => rfl
  | or =>
    have hconjuncts : (q.repaged limit offset).conjuncts = q.conjuncts := rfl
    rw [attach, attach, hconjuncts]
    cases orLast tag c q.conjuncts with
    | some changed => rfl
    | none => rfl

/-- A criterion does the same to a query with another window. -/
theorem search_repaged (q : Query) (c : Criterion) :
    (q.repaged limit offset).search c = (q.search c).map (·.repaged limit offset) := by
  have hfollow := follow_repaged limit offset q c.path
  unfold search
  rw [hfollow]
  obtain ⟨joined, target⟩ := q.follow c.path
  split
  · rfl
  · have hoperand : (joined.repaged limit offset).operand target c.field =
      joined.operand target c.field := rfl
    simp only [hoperand]
    -- the steps before the last do not see the window, so they fail for both queries or for none
    cases c.check with
    | error e => rfl
    | ok _ =>
      cases joined.operand target c.field with
      | error e => rfl
      | ok operand =>
        show (c.operator.condition operand c.term >>= fun condition => _) =
          (c.operator.condition operand c.term >>= fun condition => _).map _
        cases c.operator.condition operand c.term with
        | error e => rfl
        | ok condition =>
          exact congrArg Except.ok (attach_repaged limit offset joined c.tag c.combine condition)

/-- A criterion of a lenient search does the same to a query with another window. -/
theorem searchLeniently_repaged (q : Query) (c : Criterion) :
    (q.repaged limit offset).searchLeniently c =
      (q.searchLeniently c).map (·.repaged limit offset) := by
  rw [searchLeniently, searchLeniently]
  split
  · exact search_repaged limit offset q c.withWildcards
  · rfl

/-- A key does the same to a query with another window. -/
theorem sort_repaged (q : Query) (key : SortKey) :
    (q.repaged limit offset).sort key = (q.sort key).map (·.repaged limit offset) := by
  have hfollow := follow_repaged limit offset q key.path
  unfold sort
  rw [hfollow]
  obtain ⟨joined, target⟩ := q.follow key.path
  split
  · rfl
  -- the operand is looked up in the registry, by the row source
  · have hoperand : (joined.repaged limit offset).operand target key.field =
      joined.operand target key.field := rfl
    simp only [hoperand]
    cases joined.operand target key.field with
    | error e => rfl
    | ok operand => rfl

/-- So do all criteria of a search. -/
theorem searchAll_repaged (q : Query) (criteria : Criteria) :
    (q.repaged limit offset).searchAll criteria =
      (q.searchAll criteria).map (·.repaged limit offset) :=
  Except.foldlM_map_comm (f := fun (q : Query) (entry : String × Criterion) => q.search entry.2)
    (fun q entry => search_repaged limit offset q entry.2) criteria q

/-- So do all criteria of a lenient search. -/
theorem searchAllLeniently_repaged (q : Query) (criteria : Criteria) :
    (q.repaged limit offset).searchAllLeniently criteria =
      (q.searchAllLeniently criteria).map (·.repaged limit offset) :=
  Except.foldlM_map_comm
    (f := fun (q : Query) (entry : String × Criterion) => q.searchLeniently entry.2)
    (fun q entry => searchLeniently_repaged limit offset q entry.2) criteria q

/-- So do all keys of an ordering. -/
theorem sortAll_repaged (q : Query) (keys : List SortKey) :
    (q.repaged limit offset).sortAll keys = (q.sortAll keys).map (·.repaged limit offset) :=
  Except.foldlM_map_comm (f := sort) (sort_repaged limit offset) keys q

/-- A page by key takes the limit anew, and leaves the offset. -/
theorem pageAfter_sameRows (h : q.SameRows r) (p : KeysetPage) :
    Agree SameRows (q.pageAfter p) (r.pageAfter p) := by
  obtain ⟨limit, offset, rfl⟩ := h
  rw [pageAfter, pageAfter, after, after]
  split
  · exact .ok ⟨_, offset, rfl⟩
  · have hbase : columnOperand q.base p.keyField =
      columnOperand (q.repaged limit offset).base p.keyField := rfl
    refine Agree.map ((Agree.of_eq hbase).map (S := SameRows) ?_) ?_
    -- the condition is added below either window, and then both limits are set
    · rintro key _ rfl
      exact ⟨limit, offset, rfl⟩
    · rintro _ _ ⟨_, offset', rfl⟩
      exact ⟨_, offset', rfl⟩

/-- A page by offset takes the whole window anew. -/
theorem page_repaged (q : Query) (p : OffsetPage) : (q.repaged limit offset).page p = q.page p :=
  rfl

end Query

end Listing
