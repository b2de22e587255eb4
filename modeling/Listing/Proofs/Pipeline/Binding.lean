import Listing.Proofs.Pipeline.Narrowing
import Listing.Proofs.Pipeline.Progress
import Listing.Proofs.Query.Build
import Listing.Proofs.Stage.Frame
import Listing.Proofs.Stage.Scalars

namespace Listing

/-!
# What a call binds

Whether a call ends in a query that binds a list is decided by its requests alone, before anything
is counted or applied: all terms are normalised without a look at the database, and each of them is
bound or taken apart in the same way whatever query it is applied to.

* `Builtin.FlatRequest` — a request that is normalised to flat parameters;
* `Builtin.yields_format_flat` — what is normalised in a call is flat if the request is;
* `Pipeline.yields_formatAll_flat`, `Pipeline.yields_runThreaded_scalar` — the tasks of a call, in
  either mode;
* `Pipeline.run_binds_scalars` — a call binds no list exactly if its requests are flat.
-/

/-! ### Requests -/

namespace Builtin

variable {m : Type → Type} [Monad m] {q r : Query}

/-- The parameters of the request are flat once they are normalised, which takes no repository. -/
def FlatRequest (b : Builtin) (q : Query) (request : Json) (perPage : Int64) : Prop :=
  ∀ document, b.format q request (⟨none, perPage⟩ : Context Id) = pure document → b.Flat document

/-- All parameters but those of pages by offset are normalised without effects, and alike for all
queries of an entity. -/
theorem exists_outcome {b : Builtin} (hb : b ≠ .offsetPage) (q : Query) (request : Json)
    (perPage : Int64) : ∃ outcome : Except Error Json, ∀ (m : Type → Type) [Monad m] (r : Query)
      (context : Context m), r.entity = q.entity → context.perPage = perPage →
        b.format r request context = liftOutcome outcome := by
  -- only the entity and the size of pages go into the normal form
  cases b with
  | search =>
    refine ⟨(StrictSearch.normalise q request).map Criteria.encode, ?_⟩
    intro m _ r context hentity _
    rw [format, StrictSearch.normalise_congr hentity]
  | lenientSearch =>
    refine ⟨(LenientSearch.normalise q request).map Criteria.encode, ?_⟩
    intro m _ r context hentity _
    rw [format, LenientSearch.normalise_congr hentity]
  | sort =>
    refine ⟨(StrictSort.normalise q request).map SortKeys.encode, ?_⟩
    intro m _ r context hentity _
    rw [format, StrictSort.normalise_congr hentity]
  | lenientSort =>
    refine ⟨(LenientSort.normalise q request).map SortKeys.encode, ?_⟩
    intro m _ r context hentity _
    rw [format, LenientSort.normalise_congr hentity]
  | keysetPage =>
    refine ⟨(KeysetPage.normalise q request perPage).map KeysetPage.encode, ?_⟩
    intro m _ r context hentity hperPage
    rw [format, KeysetPage.normalise_congr hentity, hperPage]
  | offsetPage => exact absurd rfl hb

/-- What a request is normalised to in a call is flat exactly if the request is. -/
theorem yields_format_flat [LawfulMonad m] (b : Builtin) (hentity : r.entity = q.entity)
    (request : Json) (context : Context m) :
    Yields (fun document => b.Flat document ↔ b.FlatRequest q request context.perPage)
      (b.format r request context) := by
  by_cases hb : b = .offsetPage
  · subst hb
    refine yields_mono ?_ (yields_trivial _)
    intro document _
    exact ⟨fun _ _ _ _ _ => trivial, fun _ _ _ => trivial⟩
  -- the normal form is the same in every monad, so it can be looked at in the plainest one
  · obtain ⟨outcome, houtcome⟩ := exists_outcome hb q request context.perPage
    rw [houtcome m r context hentity rfl]
    refine yields_liftOutcome ?_
    intro document hdocument
    have hpure : b.format q request (⟨none, context.perPage⟩ : Context Id) = liftOutcome outcome :=
      houtcome Id q _ rfl rfl
    rw [FlatRequest, hpure, hdocument]
    constructor
    · intro hflat document' hsame
      rw [← Except.ok.inj hsame]
      exact hflat
    · intro hall
      exact hall document rfl

end Builtin

namespace Pipeline

variable {m : Type → Type} {custom : String → Handler m} {config : Config}
  {options : Options m} {q r : Query}

/-! ### Tasks -/

/-- The request of the task is flat. -/
def FlatTask (q : Query) (perPage : Int64) (task : Task) : Prop :=
  ∀ b, task.hook = .builtin b → b.FlatRequest q task.request perPage

/-- The document that a hook applies is flat. -/
def FlatEntry (entry : Hook × Json) : Prop := ∀ b, entry.1 = .builtin b → b.Flat entry.2

/-- A hook keeps a query free of lists exactly if its parameters are flat. -/
theorem scalar_hook {hook : Hook} {document : Json} (hhook : IsBuiltin hook)
    (h : hook.run custom q document = .ok r) :
    r.Scalar ↔ q.Scalar ∧ FlatEntry (hook, document) := by
  obtain ⟨b, rfl⟩ := hhook
  have hflat : FlatEntry (.builtin b, document) ↔ b.Flat document := by
    constructor
    · intro hall
      exact hall b rfl
    · rintro hb _ ⟨⟩
      exact hb
  rw [Builtin.scalar_run h, hflat]

/-- So do some hooks exactly if the parameters of all are flat. -/
theorem scalar_runAll {ready : List (Hook × Json)} (hready : ∀ entry ∈ ready, IsBuiltin entry.1)
    (h : runAll custom q ready = .ok r) :
    r.Scalar ↔ q.Scalar ∧ ∀ entry ∈ ready, FlatEntry entry :=
  Except.foldlM_iff (fun entry hentry _ _ hstep => scalar_hook (hready entry hentry) hstep) h

variable [Monad m] [LawfulMonad m]

/-- The normal form is flat exactly if the request is. -/
theorem yields_format_flatEntry {task : Task} (htask : IsBuiltin task.hook)
    (hentity : r.entity = q.entity) (context : Context m) :
    Yields (fun document => FlatEntry (task.hook, document) ↔ FlatTask q context.perPage task)
      (task.hook.format custom r task.request context) := by
  obtain ⟨stage, hook, request⟩ := task
  obtain ⟨b, hhook⟩ := htask
  simp only at hhook
  subst hhook
  refine yields_mono ?_ (b.yields_format_flat hentity request context)
  intro document hiff
  constructor
  · rintro hflat _ ⟨⟩
    exact hiff.mp (hflat b rfl)
  · rintro hflat _ ⟨⟩
    exact hiff.mpr (hflat b rfl)

/-- Normalising all tasks leaves the hooks as they are, and gives flat documents exactly if all
requests are flat. -/
theorem yields_formatAll_flat (context : Context m) (params : Params) {ts : List Task}
    (hts : ∀ task ∈ ts, IsBuiltin task.hook) :
    Yields (fun outcome => (∀ entry ∈ outcome.1, IsBuiltin entry.1) ∧
        ((∀ entry ∈ outcome.1, FlatEntry entry) ↔ ∀ task ∈ ts, FlatTask q context.perPage task))
      (formatAll custom context q params ts) := by
  induction ts generalizing params with
  | nil =>
    refine yields_pure ?_
    simp
  | cons task rest ih =>
    obtain ⟨htask, hrest⟩ := List.forall_mem_cons.mp hts
    rw [formatAll]
    refine yields_bind (yields_format_flatEntry htask rfl context) ?_
    intro document hdocument
    refine yields_bind (ih _ hrest) ?_
    rintro outcome ⟨hbuiltin, hflat⟩
    refine yields_pure ⟨List.forall_mem_cons.mpr ⟨htask, hbuiltin⟩, ?_⟩
    rw [List.forall_mem_cons, List.forall_mem_cons, hflat, hdocument]

/-- A run in two passes binds no list more exactly if all requests are flat. -/
theorem yields_runTwoPass_scalar (context : Context m) (params : Params) {ts : List Task}
    (hts : ∀ task ∈ ts, IsBuiltin task.hook) :
    Yields (fun outcome => outcome.1.Scalar ↔
        q.Scalar ∧ ∀ task ∈ ts, FlatTask q context.perPage task)
      (runTwoPass custom context q params ts) := by
  refine yields_bind (yields_formatAll_flat context params hts) ?_
  rintro outcome ⟨hbuiltin, hflat⟩
  refine yields_bind (yields_liftOutcome fun r hrun => scalar_runAll hbuiltin hrun) ?_
  intro r hr
  refine yields_pure ?_
  rw [hr, hflat]

/-- A threaded run binds no list more exactly if all requests are flat. -/
theorem yields_runThreaded_scalar (context : Context m) (hentity : r.entity = q.entity)
    (params : Params) {ts : List Task} (hts : ∀ task ∈ ts, IsBuiltin task.hook) :
    Yields (fun outcome => outcome.1.Scalar ↔
        r.Scalar ∧ ∀ task ∈ ts, FlatTask q context.perPage task)
      (runThreaded custom context r params ts) := by
  induction ts generalizing r params with
  | nil =>
    refine yields_pure ?_
    simp
  | cons task rest ih =>
    obtain ⟨htask, hrest⟩ := List.forall_mem_cons.mp hts
    rw [runThreaded]
    refine yields_bind (yields_format_flatEntry htask hentity context) ?_
    intro document hdocument
    -- the entity is carried along, because the requests of later tasks are normalised by it
    refine yields_bind (P := fun r' => r'.entity = q.entity ∧
      (r'.Scalar ↔ r.Scalar ∧ FlatEntry (task.hook, document))) (yields_liftOutcome ?_) ?_
    · intro r' hrun
      refine ⟨?_, scalar_hook htask hrun⟩
      obtain ⟨b, hhook⟩ := htask
      rw [hhook] at hrun
      exact (Builtin.entity_run hrun).trans hentity
    · rintro r' ⟨hentity', hscalar⟩
      refine yields_mono ?_ (ih hentity' _ hrest)
      intro outcome houtcome
      rw [houtcome, hscalar, hdocument, List.forall_mem_cons, and_assoc]

/-! ### Calls -/

/-- **Only flat requests bind scalars.** What `Pipeline.run` with hooks of this library
(`AllBuiltin`) makes of a query without bound lists (`Query.Scalar`) binds no list, neither in
`Query.build` nor in `Query.buildCount`, exactly if each request that a hook handles is flat
(`Builtin.FlatRequest`): it has no list inside the list of a criterion whose term has the right
shape, and no list as the last key seen.  Nothing but a list fails to bind for being one. -/
theorem run_binds_scalars (custom : String → Handler m)
    (hhooks : AllBuiltin config options q.entity) (hq : q.Scalar) (params : Params) :
    Yields (fun outcome : Query × Params =>
        ((∀ t ∈ outcome.1.build.2 ++ outcome.1.buildCount.2, t.isList = false ∧
            ∀ type, t.bind type ≠ .error .listTerm) ↔
          ∀ stage ∈ stagesOf config options, ∀ request, params.get? stage = some request →
            ∀ b, resolve stage options q.entity config = .ok (.builtin b) →
              b.FlatRequest q request (options.perPage.getD config.perPage)))
      (run custom config options q params) := by
  refine yields_bind (P := fun ts => (∀ task ∈ ts, IsBuiltin task.hook) ∧ ∀ task : Task,
      task ∈ ts ↔ task.stage ∈ stagesOf config options ∧
        params.get? task.stage = some task.request ∧
        resolve task.stage options q.entity config = .ok task.hook)
    (yields_liftOutcome fun ts hrun =>
      ⟨isBuiltin_of_tasks hhooks hrun, fun _ => mem_tasks_iff hrun⟩) ?_
  rintro ts ⟨hts, hmem⟩
  -- what the tasks bind does not depend on the mode
  refine yields_mono (P := fun outcome => outcome.1.Scalar ↔
    q.Scalar ∧ ∀ task ∈ ts, FlatTask q (contextOf config options).perPage task) ?_ ?_
  swap
  · cases config.mode with
    | twoPass => exact yields_runTwoPass_scalar _ params hts
    | threaded => exact yields_runThreaded_scalar _ rfl params hts
  intro outcome houtcome
  -- both statements bind the terms of the query, and only lists fail as lists
  have hbound : (∀ t ∈ outcome.1.build.2 ++ outcome.1.buildCount.2, t.isList = false ∧
      ∀ type, t.bind type ≠ .error .listTerm) ↔ outcome.1.Scalar := by
    rw [Query.build_eq, Query.buildCount_eq]
    constructor
    · intro hall t ht
      exact (hall t (List.mem_append_left _ ht)).1
    · intro hscalars t ht
      have hlist : t.isList = false := hscalars t ((List.mem_append.mp ht).elim id id)
      refine ⟨hlist, fun type herror => ?_⟩
      rw [Term.bind_eq_listTerm_iff, hlist] at herror
      cases herror
  have htasks : (∀ task ∈ ts, FlatTask q (contextOf config options).perPage task) ↔
      ∀ stage ∈ stagesOf config options, ∀ request, params.get? stage = some request →
        ∀ b, resolve stage options q.entity config = .ok (.builtin b) →
          b.FlatRequest q request (options.perPage.getD config.perPage) := by
    -- a task is a stage with its request and its hook, in either direction
    constructor
    · intro hall stage hstage request hrequest b hhook
      have htask : ⟨stage, .builtin b, request⟩ ∈ ts := (hmem _).mpr ⟨hstage, hrequest, hhook⟩
      exact hall _ htask b rfl
    · intro hall task htask b hb
      obtain ⟨hstage, hrequest, hhook⟩ := (hmem task).mp htask
      rw [hb] at hhook
      exact hall task.stage hstage task.request hrequest b hhook
  rw [hbound, houtcome, and_iff_right hq, htasks]

/-- A search for some identifiers, and for a price between two bounds. -/
def listedIds : Params :=
  ⟨[("search", .obj [("id", .obj [("search_type", .str "in"),
      ("search_term", .arr [.int 1, .str "2", .null])]),
    ("price", .obj [("search_type", .str "between"), ("search_term", .arr [.int 5, .int 9])])])]⟩

/-- A list of integers, texts and null is taken apart, and every item bound. -/
theorem run_binds_scalars_listedIds :
    ∃ r normal,
      run Handler.unfinished .standard (.none : Options Id) tenantProducts listedIds =
        pure (r, normal) ∧
      r.terms = [.text "a", .int 1, .text "2", .null, .int 5, .int 9] ∧
      ∀ t ∈ r.build.2 ++ r.buildCount.2, t.isList = false ∧
        ∀ type, t.bind type ≠ .error .listTerm := by
  have hhooks : AllBuiltin .standard (.none : Options Id) tenantProducts.entity :=
    allBuiltin_of_hooks nofun nofun nofun
  have hscalar : tenantProducts.Scalar := List.forall_mem_singleton.mpr rfl
  have hbinds := of_ensures_id (run_binds_scalars Handler.unfinished hhooks hscalar listedIds)
  refine ⟨_, _, rfl, rfl, (hbinds _ rfl).mpr ?_⟩
  intro stage hstage request hrequest b hhook
  simp only [stagesOf, Options.none, Config.standard, Option.getD_none, List.mem_cons,
    List.not_mem_nil, or_false] at hstage
  -- only the search has a request
  rcases hstage with rfl | rfl | rfl
  · cases hrequest
    cases hhook
    intro document hdocument
    cases hdocument
    intro criteria hcriteria
    cases hcriteria
    refine List.forall_mem_cons.mpr ⟨fun _ => ?_, List.forall_mem_singleton.mpr fun _ => ?_⟩
    · exact Term.flat_list.mpr (by decide)
    · exact Term.flat_list.mpr (by decide)
  · cases hrequest
  · cases hrequest

/-- A search for a list of identifiers that has another list in it. -/
def nestedIds : Params :=
  ⟨[("search", .obj [("id", .obj [("search_type", .str "in"),
      ("search_term", .arr [.arr [.int 1, .int 2], .int 3])])])]⟩

/-- The first page of a listing by key, after a key that is a list. -/
def afterList : Params :=
  ⟨[("paginate", .obj [("key_field", .str "id"), ("last_seen_key", .arr [.int 1, .int 2])])]⟩

/-- The labels, by identifier. -/
def numberedLabels : Query :=
  { Query.labels with entity := (Entity.empty "label" "labels").withPrimaryKey "id" }

/-- **Nested lists are bound.** The inner list of a search is bound as it is, and so is the list
that a page starts after. -/
theorem nested_list_bound :
    tenantProducts.Scalar ∧
    (∃ r normal,
      run Handler.unfinished .standard (.none : Options Id) tenantProducts nestedIds =
        pure (r, normal) ∧
      r.build = ("SELECT p0.* FROM products AS p0 WHERE p0.tenant = $1 AND p0.id IN ($2, $3)",
        [.text "a", .list [.int 1, .int 2], .int 3])) ∧
    numberedLabels.Scalar ∧
    (∃ r normal,
      run Handler.unfinished .standard
        ((.none : Options Id).withHook "paginate" (.builtin .keysetPage)) numberedLabels afterList =
        pure (r, normal) ∧
      r.build = ("SELECT l0.* FROM labels AS l0 WHERE l0.id > $1 LIMIT 10",
        [.list [.int 1, .int 2]])) ∧
    ∀ type, Term.bind type (.list [.int 1, .int 2]) = .error .listTerm := by
  refine ⟨List.forall_mem_singleton.mpr rfl, ⟨_, _, rfl, ?_⟩, nofun, ⟨_, _, rfl, ?_⟩, fun _ => rfl⟩
  · rw [Query.build_eq]
    exact Prod.ext (by decide +kernel) rfl
  · rw [Query.build_eq]
    exact Prod.ext (by decide +kernel) rfl

end Pipeline

end Listing
