import Listing.Proofs.Query.History
import Listing.Proofs.Query.Scope
import Listing.Proofs.Sql.Grammar
import Mathlib.Data.List.Nodup

namespace Listing

/-!
# Joins of a query

The alias of a row source is a letter of its table and its position, so two sources of a query may
share the letter but never the alias.  A join compares its own alias with that of the source it
starts from; if that source has been given by the same query, it stands earlier in the statement.

* `JoinMade` — a join with the row sources it goes from and to;
* `Query.Traced` — a query with the joins that were made for it, each from a source given before;
* `Registry.joinOf` — a join as a statement has it, which the registry tells of a made one;
* `Join.text_tokens`, `Registry.text_joinOf` — the text of a join, and of one that was made;
* `Query.WellJoined` — what making joins keeps up, and `Query.Traced.wellJoined`;
* `Query.Traced.run` — what the hooks make of a traced query is traced;
* `Query.joins_well_scoped` — aliases, scopes and paths of every traced query.
-/

open Sql (Alias Condition)

/-- A join that was made: along a relation of a row source, with the row source that it gave. -/
structure JoinMade where
  kind : JoinKind
  owner : Binding
  relation : String
  target : Binding
  deriving DecidableEq, Repr

namespace JoinMade

/-- What was asked for. -/
def request (m : JoinMade) : JoinRequest := ⟨m.owner.entity, m.relation⟩

/-- The step of a path that asks for such a join. -/
def step (m : JoinMade) : JoinStep := ⟨m.kind, m.relation⟩

end JoinMade

/-! ### Queries with their joins -/

namespace Query

/-- The row source is the base, or one that a join has given. -/
def Offers (q : Query) (made : List JoinMade) (b : Binding) : Prop :=
  b = q.base ∨ b ∈ made.map JoinMade.target

/-- A join along a relation of a row source, as it is made in a query. -/
def making (q : Query) (kind : JoinKind) (owner : Binding) (relation : String) : JoinMade :=
  ⟨kind, owner, relation, (q.join kind owner relation).2⟩

/-- The joins that are made along a path, each from the target of the one before. -/
def madeAlong (q : Query) (start : Binding) : JoinPath → List JoinMade
  | [] => []
  | s :: rest =>
    q.making s.kind start s.relation ::
      (q.join s.kind start s.relation).1.madeAlong (q.join s.kind start s.relation).2 rest

/-- The queries that are made of an entity by the steps of a history, with the joins that were made.
A join starts from the base or from a row source that an earlier one has given. -/
inductive Traced : Query → List JoinMade → Prop
  | ofEntity {registry : Registry} {name : String} {q : Query}
    (h : ofEntity registry name = .ok q) : Traced q []
  | join {q : Query} {made : List JoinMade} (h : Traced q made) (kind : JoinKind) {owner : Binding}
    (howner : q.Offers made owner) (relation : String) :
    Traced (q.join kind owner relation).1 (made ++ [q.making kind owner relation])
  | edit {q r : Query} {made : List JoinMade} (h : Traced q made) {e : Edit}
    (hedit : q.edit e = .ok r) (he : e.Joinless) : Traced r made

end Query

/-! ### Joins in statements -/

/-- An alias has the position that it was given, whatever its table is called. -/
theorem Sql.Alias.index_ofTable (table : String) (n : Nat) : (Alias.ofTable table n).index = n := by
  unfold Alias.ofTable
  split <;> rfl

namespace Registry

variable {r : Registry} {m : JoinMade} {a : Association}

/-- The condition of a made join, if its association leads to a registered entity. -/
def onOf (r : Registry) (m : JoinMade) : Option JoinOn :=
  match r.association? m.request with
  | none => none
  | some a =>
    if r.contains a.target && m.kind != .cross then
      some ⟨a.relatedKey, m.owner.source, a.ownerKey⟩
    else none

/-- A made join as a statement has it. -/
def joinOf (r : Registry) (m : JoinMade) : Join :=
  ⟨m.kind, r.tableOf m.request, m.target.source, r.onOf m⟩

/-- A cross join has no condition. -/
theorem onOf_of_cross (hkind : m.kind = .cross) : r.onOf m = none := by
  unfold onOf
  split
  · rfl
  · simp [hkind]

/-- Any other join along an association to a registered entity compares the keys of that. -/
theorem onOf_eq (ha : r.association? m.request = some a) (htarget : r.contains a.target = true)
    (hkind : m.kind ≠ .cross) : r.onOf m = some ⟨a.relatedKey, m.owner.source, a.ownerKey⟩ := by
  simp [onOf, ha, htarget, hkind]

end Registry

/-- The condition of a join as it is written. -/
def JoinOn.text (source : Alias) (on : JoinOn) : String :=
  source.text ++ "." ++ on.relatedKey ++ " = " ++ on.owner.text ++ "." ++ on.ownerKey

/-- The text of a join: its kind, its table and alias, and its condition if it has one. -/
theorem Join.text_tokens (j : Join) : Sql.text j.tokens =
    Sql.text j.kind.tokens ++ " " ++ j.table ++ " AS " ++ j.source.text ++
      match j.on with
      | some on => " ON " ++ on.text j.source
      | none => "" := by
  obtain ⟨kind, table, source, on⟩ := j
  -- the blanks stand between tokens on one side and inside words on the other
  refine String.toList_inj.mp ?_
  cases kind <;> cases on <;>
    simp [Join.tokens, JoinKind.tokens, aliased, JoinOn.tokens, JoinOn.text, Sql.text,
      Sql.Token.text, Sql.Keyword.text, Sql.Sign.text, Sql.Token.clingsToNext,
      Sql.Token.clingsToLast]

/-- The text of a made join along an association to a registered entity. -/
theorem Registry.text_joinOf {r : Registry} {m : JoinMade} {a : Association} {target : Entity}
    (ha : r.association? m.request = some a) (htarget : r.get? a.target = some target) :
    Sql.text (r.joinOf m).tokens =
      Sql.text m.kind.tokens ++ " " ++ target.table ++ " AS " ++ m.target.source.text ++
        if m.kind = .cross then ""
        else " ON " ++ (m.target.source.text ++ "." ++ a.relatedKey ++ " = " ++
          m.owner.source.text ++ "." ++ a.ownerKey) := by
  have hcontains : r.contains a.target = true := by rw [contains, htarget]; rfl
  have htable : r.tableOf m.request = target.table := by simp [tableOf, ha, htarget]
  rw [Join.text_tokens, joinOf, htable]
  by_cases hkind : m.kind = .cross
  · rw [onOf_of_cross hkind, if_pos hkind]
  · rw [onOf_eq ha hcontains hkind, if_neg hkind]
    rfl

namespace Query

variable {q r : Query} {made : List JoinMade}

/-- A join adds the join of what was asked for, under the alias of the row source that it gives. -/
theorem joins_join (q : Query) (kind : JoinKind) (owner : Binding) (relation : String) :
    (q.join kind owner relation).1.joins =
      q.joins ++ [q.registry.joinOf (q.making kind owner relation)] := by
  have hassociation : (q.entityOf owner).bind (fun entity => entity.association? relation) =
      q.registry.association? ⟨owner.entity, relation⟩ := rfl
  unfold making
  rw [join, hassociation]
  -- the three outcomes of a join, which the registry alone tells apart
  cases ha : q.registry.association? ⟨owner.entity, relation⟩ with
  | none => simp [note, addJoin, Registry.joinOf, Registry.tableOf, Registry.onOf,
      JoinMade.request, ha]
  | some a =>
    simp only
    cases htarget : q.registry.get? a.target with
    | none => simp [note, addJoin, Registry.joinOf, Registry.tableOf, Registry.onOf,
        JoinMade.request, Registry.contains, ha, htarget]
    | some target =>
      by_cases hkind : kind = .cross
      · simp [addJoin, Registry.joinOf, Registry.tableOf, Registry.onOf, JoinMade.request, ha,
          htarget, hkind]
      · simp [addJoin, Registry.joinOf, Registry.tableOf, Registry.onOf, JoinMade.request,
          Registry.contains, ha, htarget, hkind]

/-- A path adds the joins that are made along it. -/
theorem joins_followFrom (q : Query) (start : Binding) (path : JoinPath) :
    (q.followFrom start path).1.joins =
      q.joins ++ (q.madeAlong start path).map q.registry.joinOf := by
  unfold followFrom
  induction path generalizing q start with
  | nil => exact (List.append_nil q.joins).symm
  | cons s rest ih =>
    have hrest := ih (q.join s.kind start s.relation).1 (q.join s.kind start s.relation).2
    rw [joins_join, (grows_join q s.kind start s.relation).1.registry_eq,
      List.append_assoc] at hrest
    exact hrest

/-- The row source that a join gives has the next number. -/
theorem index_join (q : Query) (kind : JoinKind) (owner : Binding) (relation : String) :
    (q.join kind owner relation).2.source.index = q.joins.length + 1 := by
  unfold join
  split
  · exact Alias.index_ofTable _ _
  · split
    · exact Alias.index_ofTable _ _
    · exact Alias.index_ofTable _ _

/-! ### Making joins -/

/-- The joins of a query are the made ones in order.  Their row sources are numbered, after the base
with number zero, and each join starts from the base or from the target of an earlier one. -/
structure WellJoined (q : Query) (made : List JoinMade) : Prop where
  joins : q.joins = made.map q.registry.joinOf
  base : q.base.source.index = 0
  numbered : made.map (fun m => m.target.source.index) = List.range' 1 made.length
  targets : ∀ m ∈ made, m.target.entity = q.registry.reached m.request
  owners : ∀ earlier m later, made = earlier ++ m :: later → q.Offers earlier m.owner

/-- What a query offers depends on its base alone. -/
theorem Offers.of_base {b : Binding} (h : q.Offers made b) (hbase : r.base = q.base) :
    r.Offers made b := by
  rw [Offers, hbase]
  exact h

/-- The target of a join is offered to later ones. -/
theorem offers_join (q : Query) (made : List JoinMade) (kind : JoinKind) (owner : Binding)
    (relation : String) : (q.join kind owner relation).1.Offers
      (made ++ [q.making kind owner relation]) (q.join kind owner relation).2 := by
  refine .inr ?_
  rw [List.map_append]
  exact List.mem_append_right _ List.mem_cons_self

namespace WellJoined

/-- A well joined query has as many joins as were made. -/
theorem length_eq (h : q.WellJoined made) : q.joins.length = made.length := by
  rw [h.joins, List.length_map]

/-- Only registry, base and joins matter. -/
theorem of_eq (h : q.WellJoined made) (hregistry : r.registry = q.registry)
    (hbase : r.base = q.base) (hjoins : r.joins = q.joins) : r.WellJoined made := by
  refine ⟨?_, ?_, h.numbered, ?_, fun earlier m later hsplit => ?_⟩
  · rw [hjoins, hregistry, h.joins]
  · rw [hbase, h.base]
  · rw [hregistry]
    exact h.targets
  · exact (h.owners earlier m later hsplit).of_base hbase

/-- A query of an entity has no join yet, and its base has number zero. -/
theorem ofEntity {registry : Registry} {name : String} (h : ofEntity registry name = .ok q) :
    q.WellJoined [] := by
  obtain ⟨-, -, -, hjoins, -⟩ := ofEntity_ok h
  refine ⟨hjoins, ?_, rfl, fun m hm => absurd hm List.not_mem_nil, ?_⟩
  · unfold Query.ofEntity at h
    split at h
    · cases h
      exact Alias.index_ofTable _ 0
    · cases h
  · intro earlier m later hsplit
    exact absurd hsplit.symm (by simp)

/-- One join from a row source that is offered. -/
theorem join (h : q.WellJoined made) (kind : JoinKind) {owner : Binding}
    (howner : q.Offers made owner) (relation : String) :
    (q.join kind owner relation).1.WellJoined (made ++ [q.making kind owner relation]) := by
  obtain ⟨hgrows, hreached⟩ := grows_join q kind owner relation
  refine ⟨?_, ?_, ?_, ?_, fun earlier m later hsplit => ?_⟩
  · rw [joins_join, hgrows.registry_eq, h.joins, List.map_append, List.map_singleton]
  · rw [hgrows.base_eq]
    exact h.base
  -- the new source is numbered by the joins that are there
  · have hindex : (q.making kind owner relation).target.source.index = made.length + 1 := by
      rw [← h.length_eq]
      exact index_join q kind owner relation
    rw [List.map_append, List.map_singleton, h.numbered, hindex, List.length_append,
      List.length_singleton, List.range'_1_concat, Nat.add_comm]
  · rw [hgrows.registry_eq]
    exact List.forall_mem_append.mpr ⟨h.targets, List.forall_mem_singleton.mpr hreached⟩
  · -- the last of the made joins is the new one, and the others have been there before
    rcases List.eq_nil_or_concat later with rfl | ⟨later', last, rfl⟩
    · obtain ⟨rfl, hm⟩ := List.append_inj' hsplit rfl
      cases hm
      exact howner.of_base hgrows.base_eq
    · rw [List.concat_eq_append, ← List.cons_append, ← List.append_assoc] at hsplit
      have hold := h.owners earlier m later' (List.append_inj' hsplit rfl).1
      exact hold.of_base hgrows.base_eq

end WellJoined

/-- Every traced query is well joined. -/
theorem Traced.wellJoined (h : q.Traced made) : q.WellJoined made := by
  induction h with
  | ofEntity h => exact .ofEntity h
  | join _ kind howner relation ih => exact ih.join kind howner relation
  | edit _ hedit he ih =>
    obtain ⟨conjuncts, order, limit, offset, rfl⟩ := edit_frame hedit he
    exact ih.of_eq rfl rfl rfl

/-- A path from a row source that is offered, join by join. -/
theorem Traced.followFrom (h : q.Traced made) {start : Binding} (hstart : q.Offers made start)
    (path : JoinPath) : (q.followFrom start path).1.Traced (made ++ q.madeAlong start path) := by
  unfold Query.followFrom
  induction path generalizing q made start with
  | nil =>
    rw [madeAlong, List.append_nil]
    exact h
  | cons s rest ih =>
    have hrest := ih (h.join s.kind hstart s.relation) (offers_join q made s.kind start s.relation)
    rw [List.append_assoc] at hrest
    exact hrest

/-! ### Hooks -/

/-- A query that is left as it is gets no more joins. -/
theorem Traced.unchanged (h : q.Traced made) : ∃ more, q.Traced (made ++ more) := by
  refine ⟨[], ?_⟩
  rw [List.append_nil]
  exact h

/-- A criterion makes the joins of its path, or none if it is passed over. -/
theorem Traced.search {c : Criterion} (h : q.Traced made) (hsearch : q.search c = .ok r) :
    ∃ more, r.Traced (made ++ more) := by
  rcases search_ok hsearch with ⟨-, rfl⟩ | ⟨-, -, operand, condition, -, -, rfl⟩
  · exact h.unchanged
  · exact ⟨_, (h.followFrom (.inl rfl) c.path).edit (e := .attach c.tag c.combine condition)
      rfl trivial⟩

/-- So does a key of an ordering. -/
theorem Traced.sort {key : SortKey} (h : q.Traced made) (hsort : q.sort key = .ok r) :
    ∃ more, r.Traced (made ++ more) := by
  rcases sort_ok hsort with ⟨-, rfl⟩ | ⟨direction, operand, -, -, rfl⟩
  · exact h.unchanged
  · exact ⟨_, (h.followFrom (.inl rfl) key.path).edit (e := .orderBy _ direction) rfl trivial⟩

/-- A page by key makes no join. -/
theorem Traced.pageAfter {p : KeysetPage} (h : q.Traced made) (hpage : q.pageAfter p = .ok r) :
    r.Traced made := by
  rcases pageAfter_ok hpage with ⟨-, rfl⟩ | ⟨-, key, -, rfl⟩
  · exact h.edit (e := .withLimit _) rfl trivial
  · exact (h.edit (e := .also _) rfl trivial).edit (e := .withLimit _) rfl trivial

/-- Joins that are made after some are made after those before. -/
theorem Traced.after (h : ∃ more, q.Traced (made ++ more))
    (hstep : ∀ all, q.Traced all → ∃ next, r.Traced (all ++ next)) :
    ∃ more, r.Traced (made ++ more) := by
  obtain ⟨more, hq⟩ := h
  obtain ⟨next, hr⟩ := hstep _ hq
  rw [List.append_assoc] at hr
  exact ⟨more ++ next, hr⟩

/-- Every step goes on with the joins that have been made. -/
theorem Traced.keptBySteps (made : List JoinMade) :
    KeptBySteps fun q => ∃ more, q.Traced (made ++ more) where
  search h hstep := after h fun _ hq => hq.search hstep
  sort h hstep := after h fun _ hq => hq.sort hstep
  page _ h := after h fun _ hq =>
    ((hq.edit (e := .withLimit _) rfl trivial).edit (e := .withOffset _) rfl trivial).unchanged
  pageAfter h hstep := after h fun _ hq => (hq.pageAfter hstep).unchanged

/-- A query that a hook of this library gives is traced as well, whatever the document. -/
theorem Traced.run {hook : Builtin} {document : Json} (h : q.Traced made)
    (hrun : hook.run q document = .ok r) : ∃ more, r.Traced (made ++ more) :=
  (keptBySteps made).run h.unchanged hrun

/-- Every step of a history keeps a query traced, if a join that it makes starts from a row source
that is offered. -/
theorem Traced.edit_of_offers {e : Edit} (h : q.Traced made) (hedit : q.edit e = .ok r)
    (hstart : ∀ kind owner relation, e = .join kind owner relation → q.Offers made owner) :
    ∃ more, r.Traced (made ++ more) := by
  cases e with
  | join kind owner relation =>
    cases hedit
    exact ⟨_, h.join kind (hstart kind owner relation rfl) relation⟩
  | run hook document => exact h.run hedit
  | _ => exact (h.edit hedit trivial).unchanged

/-! ### Aliases and scopes -/

/-- The aliases of a well joined query are told apart by their numbers. -/
theorem WellJoined.nodup_sources (h : q.WellJoined made) : q.sources.Nodup := by
  have hsources : q.sources.map Alias.index = List.range' 0 (made.length + 1) := by
    have hjoins : q.joins.map (fun j => j.source.index) = List.range' 1 made.length := by
      rw [h.joins, List.map_map, ← h.numbered]
      rfl
    rw [sources, List.map_cons, List.map_map, h.base, List.range'_succ]
    exact congrArg _ hjoins
  exact List.Nodup.of_map _ (hsources ▸ List.nodup_range')

/-- A row source that some joins offer stands in the statement with the base and these joins. -/
theorem Offers.source_mem {b : Binding} (h : q.Offers made b) :
    b.source ∈ q.base.source :: (made.map q.registry.joinOf).map Join.source := by
  rcases h with rfl | h
  · exact List.mem_cons_self
  · obtain ⟨m, hm, rfl⟩ := List.mem_map.mp h
    rw [List.map_map]
    exact List.mem_cons_of_mem _ (List.mem_map.mpr ⟨m, hm, rfl⟩)

/-- How a made join stands in a statement, after some others: with its kind, under the alias of the
row source that it gave, and starting from a source that stands earlier.  If its association leads
to a registered entity, it has the condition of that association, unless its kind is cross. -/
structure Stands (q : Query) (before : List Join) (m : JoinMade) (j : Join) : Prop where
  kind : j.kind = m.kind
  source : j.source = m.target.source
  target : m.target.entity = q.registry.reached m.request
  owner : m.owner.source ∈ q.base.source :: before.map Join.source
  on : ∀ a, q.registry.association? m.request = some a → q.registry.contains a.target = true →
    (j.on.isSome = true ↔ m.kind ≠ .cross)
  text : ∀ a target, q.registry.association? m.request = some a →
    q.registry.get? a.target = some target → Sql.text j.tokens =
      Sql.text m.kind.tokens ++ " " ++ target.table ++ " AS " ++ m.target.source.text ++
        if m.kind = .cross then ""
        else " ON " ++ (m.target.source.text ++ "." ++ a.relatedKey ++ " = " ++
          m.owner.source.text ++ "." ++ a.ownerKey)

/-- The joins of a query are the made ones, each where it was made. -/
def Shows (q : Query) (made : List JoinMade) : Prop :=
  q.joins.length = made.length ∧
    ∀ earlier m later, made = earlier ++ m :: later → ∃ before j after,
      q.joins = before ++ j :: after ∧ before.length = earlier.length ∧ q.Stands before m j

/-- The join of a made one stands as it was made. -/
theorem WellJoined.stands (h : q.WellJoined made) {earlier later : List JoinMade} {m : JoinMade}
    (hsplit : made = earlier ++ m :: later) :
    q.Stands (earlier.map q.registry.joinOf) m (q.registry.joinOf m) := by
  have hm : m ∈ made := hsplit ▸ List.mem_append_right _ List.mem_cons_self
  refine ⟨rfl, rfl, h.targets m hm, (h.owners earlier m later hsplit).source_mem, ?_, ?_⟩
  · intro a ha htarget
    show (q.registry.onOf m).isSome = true ↔ _
    by_cases hkind : m.kind = .cross
    · simp [Registry.onOf_of_cross hkind, hkind]
    · simp [Registry.onOf_eq ha htarget hkind, hkind]
  · exact fun a target ha htarget => Registry.text_joinOf ha htarget

/-- Each join stands where it was made, because the joins are the made ones in order. -/
theorem WellJoined.shows (h : q.WellJoined made) : q.Shows made := by
  refine ⟨h.length_eq, fun earlier m later hsplit => ?_⟩
  refine ⟨earlier.map q.registry.joinOf, q.registry.joinOf m, later.map q.registry.joinOf, ?_,
    List.length_map _, h.stands hsplit⟩
  rw [h.joins, hsplit, List.map_append, List.map_cons]

/-! ### Paths -/

/-- The joins along a path are of its steps. -/
theorem steps_madeAlong (q : Query) (start : Binding) (path : JoinPath) :
    (q.madeAlong start path).map JoinMade.step = path := by
  induction path generalizing q start with
  | nil => rfl
  | cons s rest ih =>
    rw [madeAlong, List.map_cons, ih]
    rfl

/-- Along a path each join starts from the target of the one before, and the last target is where
the path leads to. -/
theorem owners_madeAlong (q : Query) (start : Binding) (path : JoinPath) :
    (q.madeAlong start path).map JoinMade.owner ++ [(q.followFrom start path).2] =
      start :: (q.madeAlong start path).map JoinMade.target := by
  unfold followFrom
  induction path generalizing q start with
  | nil => rfl
  | cons s rest ih =>
    have hrest := ih (q.join s.kind start s.relation).1 (q.join s.kind start s.relation).2
    exact congrArg (start :: ·) hrest

/-- **Joins are well scoped.** In a query that is made of an entity, where each join starts from the
base or from a row source that an earlier join has given (`Query.Traced`), no two row sources have
one alias, and every join stands as it was made (`Query.Shows`).  `Query.followFrom` adds one join
for each step of a path to those that are there, in order, each from the target of the one before
(`Query.madeAlong`). -/
theorem joins_well_scoped (h : q.Traced made) :
    (q.sources.map Alias.text).Nodup ∧ q.Shows made ∧
    ∀ start path, q.Offers made start →
      q.joins <+: (q.followFrom start path).1.joins ∧
      (q.followFrom start path).1.joins.length = q.joins.length + path.length ∧
      (q.madeAlong start path).map JoinMade.step = path ∧
      (q.madeAlong start path).map JoinMade.owner ++ [(q.followFrom start path).2] =
        start :: (q.madeAlong start path).map JoinMade.target ∧
      (q.followFrom start path).1.Shows (made ++ q.madeAlong start path) := by
  have hjoined := h.wellJoined
  refine ⟨hjoined.nodup_sources.map fun _ _ => Alias.text_injective, hjoined.shows, ?_⟩
  intro start path hstart
  -- the joins along the path belong to the trace of the longer query, so all holds of them too
  have hfollowed := (h.followFrom hstart path).wellJoined
  have hregistry := (grows_followFrom q start path).registry_eq
  refine ⟨?_, ?_, steps_madeAlong q start path, owners_madeAlong q start path, hfollowed.shows⟩
  · rw [hfollowed.joins, hregistry, List.map_append, ← hjoined.joins]
    exact List.prefix_append _ _
  · rw [hfollowed.length_eq, hjoined.length_eq, List.length_append,
      ← congrArg List.length (steps_madeAlong q start path), List.length_map]

/-- Products have parts, and a part belongs to a product. -/
def assembly : Registry :=
  (Registry.empty.insert ((Entity.empty "part" "parts").belongsTo "product" "product"
      "product_id") rfl).insert
    ((Entity.empty "product" "products").hasMany "parts" "part" "product_id") rfl

/-- From a part that has been joined, its product and the parts of that: all with one letter. -/
theorem joins_well_scoped_parts :
    ∃ (q : Query) (made : List JoinMade), q.Traced made ∧ made.length = 3 ∧
    q.sources.map Alias.text = ["p0", "p1", "p2", "p3"] ∧ (q.sources.map Alias.text).Nodup ∧
    (q.followFrom q.base [⟨.cross, "parts"⟩]).1.joins.length = 4 ∧
    q.joins.map (fun j => Sql.text j.tokens) =
      ["LEFT JOIN parts AS p1 ON p1.product_id = p0.id",
        "INNER JOIN products AS p2 ON p2.id = p1.product_id", "CROSS JOIN parts AS p3"] := by
  obtain ⟨start, hstart⟩ : ∃ start, ofEntity assembly "product" = .ok start := ⟨_, rfl⟩
  have hjoin := (Traced.ofEntity hstart).join .left (.inl rfl) "parts"
  -- from the parts that have just been joined, not from the base
  have htraced := (hjoin.edit (e := .also (.constant true)) rfl trivial).followFrom
    (offers_join start [] .left start.base "parts") [⟨.inner, "product"⟩, ⟨.cross, "parts"⟩]
  cases hstart
  obtain ⟨hnodup, -, hpath⟩ := joins_well_scoped htraced
  exact ⟨_, _, htraced, rfl, by decide +kernel, hnodup,
    (hpath _ [⟨.cross, "parts"⟩] (.inl rfl)).2.1.trans rfl, by decide +kernel⟩

end Query

end Listing
