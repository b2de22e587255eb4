import Listing.Proofs.Pipeline.Binding
import Listing.Proofs.Stage.Faults

namespace Listing

/-!
# What a call is refused for

Where neither the database nor a scope fails, a call is refused for its configuration or for its
parameters.  Its errors say so, except for one: the error of a column that the parameters name and
that is no identifier, which comes up when they are applied.

* `Repository.Reliable` — counting never fails;
* `Builtin.Names` — the columns that a request names once it is normalised;
* `Builtin.settles_format` — what normalising a request gives, or is refused for;
* `Pipeline.RequestNames` — the columns that the requests of a call name;
* `Pipeline.run_refused_iff` — which errors of a call do not say that they lie in its parameters.
-/

open Error (Blames)

variable {m : Type → Type}

/-- Counting the rows of a query never fails. -/
def Repository.Reliable [Monad m] (repository : Repository m) : Prop :=
  ∀ q, Settles (fun _ => True) (fun _ => False) (repository.count q)

/-- The repository of the context, if there is one, never fails to count. -/
def Context.Reliable [Monad m] (context : Context m) : Prop :=
  ∀ repository, context.repository = some repository → repository.Reliable

/-! ### Requests -/

/-- A page by offset is refused for what its request says, or for want of a repository. -/
theorem OffsetPage.settles_normalise [Monad m] [LawfulMonad m] {q : Query}
    (hscopes : q.entity.ScopesSucceed) (request : Json) {context : Context m}
    (hcount : context.Reliable) :
    Settles (fun _ => True) (fun e => e.isConfiguration = true) (normalise q request context) := by
  have hread := refuses_read hscopes request context.perPage
  unfold normalise
  split
  · rename_i e he
    exact settles_throw (hread e he)
  · split
    · rename_i repository hrepository
      refine settles_bind (P := fun _ => True) ?_ fun total _ => settles_pure trivial
      exact settles_mono (fun _ => id) (fun _ => False.elim) (hcount repository hrepository q)
    · exact settles_throw rfl

namespace Builtin

variable {q r : Query} {b : Builtin}

/-- The column is named by the parameters of the document. -/
def NamedIn (b : Builtin) (document : Json) (name : String) : Prop :=
  ∃ p, b.decode document = .ok p ∧ name ∈ b.columns p

/-- The column is named by the request once it is normalised, which takes no repository. -/
def Names (b : Builtin) (q : Query) (request : Json) (perPage : Int64) (name : String) : Prop :=
  ∃ document, b.format q request (⟨none, perPage⟩ : Context Id) = pure document ∧
    b.NamedIn document name

/-- Normalising fails only by refusing the request, if no scope fails and no rows are counted. -/
theorem refuses_format (hb : b ≠ .offsetPage) (hscopes : q.entity.ScopesSucceed)
    (request : Json) (context : Context Id) : Refuses (b.format q request context).run := by
  cases b with
  | search => exact (StrictSearch.refuses_normalise hscopes request).map
  | lenientSearch => exact (LenientSearch.refuses_normalise hscopes request).map
  | sort => exact (StrictSort.refuses_normalise hscopes request).map
  | lenientSort => exact (LenientSort.refuses_normalise hscopes request).map
  | keysetPage => exact (KeysetPage.refuses_normalise q request context.perPage).map
  | offsetPage => exact absurd rfl hb

/-- A request is normalised to parameters that name its columns, or refused for what it is. -/
theorem settles_format [Monad m] [LawfulMonad m] (b : Builtin) (hentity : r.entity = q.entity)
    (hscopes : q.entity.ScopesSucceed) (request : Json) {context : Context m}
    (hcount : context.Reliable) :
    Settles (fun document => ∀ name, b.NamedIn document name →
        b.Names q request context.perPage name)
      (fun e => e.isConfiguration = true) (b.format r request context) := by
  by_cases hb : b = .offsetPage
  · subst hb
    rw [← hentity] at hscopes
    rw [format, map_eq_pure_bind]
    refine settles_bind (OffsetPage.settles_normalise hscopes request hcount) ?_
    intro page _
    refine settles_pure ?_
    -- a page by offset names no column
    rintro name ⟨p, -, hname⟩
    cases hname
  · obtain ⟨outcome, houtcome⟩ := exists_outcome hb q request context.perPage
    have hpure : b.format q request (⟨none, context.perPage⟩ : Context Id) = liftOutcome outcome :=
      houtcome Id q _ rfl rfl
    rw [houtcome m r context hentity rfl]
    refine settles_liftOutcome ?_ ?_
    · rintro document rfl name hname
      exact ⟨document, hpure, hname⟩
    · have hrefuses := refuses_format hb hscopes request (⟨none, context.perPage⟩ : Context Id)
      rw [hpure] at hrefuses
      exact hrefuses

end Builtin

namespace Pipeline

variable {custom : String → Handler m} {config : Config} {options : Options m} {q r : Query}
  {params : Params} {Named : String → Prop}

/-! ### Tasks -/

/-- So does finding the hooks of the stages. -/
theorem refuses_tasks (config : Config) (options : Options m) (entity : Entity) (params : Params)
    (stages : List String) : Refuses (tasks config options entity params stages) := by
  induction stages with
  | nil => exact failsWith_ok _
  | cons stage rest ih =>
    rw [tasks]
    split
    · exact ih
    · refine .bind ?_ fun hook _ => ih.bind fun more _ => failsWith_ok _
      unfold resolve
      split
      · exact failsWith_ok _
      · exact failsWith_error.mpr rfl

/-- The task has a hook of this library, and the columns that its request names are among some. -/
def TaskNames (Named : String → Prop) (q : Query) (perPage : Int64) (task : Task) : Prop :=
  ∃ b, task.hook = .builtin b ∧ ∀ name, b.Names q task.request perPage name → Named name

/-- The hook is one of this library, and the columns that the document names are among some. -/
def EntryNames (Named : String → Prop) (entry : Hook × Json) : Prop :=
  ∃ b, entry.1 = .builtin b ∧ ∀ name, b.NamedIn entry.2 name → Named name

/-- Applying what a hook has accepted fails for a named column alone. -/
theorem blames_hook {entry : Hook × Json} (hentry : EntryNames Named entry) (q : Query) :
    FailsWith (Blames Named) (entry.1.run custom q entry.2) := by
  obtain ⟨hook, document⟩ := entry
  obtain ⟨b, rfl, hnames⟩ := hentry
  exact b.blames_run (fun p hp name hname => hnames name ⟨p, hp, hname⟩) q

/-- So does applying all of it. -/
theorem blames_runAll {ready : List (Hook × Json)}
    (hready : ∀ entry ∈ ready, EntryNames Named entry) (q : Query) :
    FailsWith (Blames Named) (runAll custom q ready) :=
  FailsWith.foldlM (fun entry hentry => blames_hook (hready entry hentry)) q

variable [Monad m] [LawfulMonad m] {context : Context m}

/-- Normalising a task leads to an entry whose columns are named, or blames one. -/
theorem settles_format {task : Task} (htask : TaskNames Named q context.perPage task)
    (hentity : r.entity = q.entity) (hscopes : q.entity.ScopesSucceed)
    (hcount : context.Reliable) :
    Settles (fun document => EntryNames Named (task.hook, document)) (Blames Named)
      (task.hook.format custom r task.request context) := by
  obtain ⟨stage, hook, request⟩ := task
  obtain ⟨b, rfl, hnames⟩ := htask
  refine settles_mono ?_ (fun _ => .inl) (b.settles_format hentity hscopes request hcount)
  intro document hdocument
  exact ⟨b, rfl, fun name hname => hnames name (hdocument name hname)⟩

/-- So does normalising all tasks. -/
theorem settles_formatAll (hscopes : q.entity.ScopesSucceed) (hcount : context.Reliable)
    (params : Params) {ts : List Task} (hts : ∀ task ∈ ts, TaskNames Named q context.perPage task) :
    Settles (fun outcome => ∀ entry ∈ outcome.1, EntryNames Named entry) (Blames Named)
      (formatAll custom context q params ts) := by
  induction ts generalizing params with
  | nil => exact settles_pure fun entry hentry => absurd hentry List.not_mem_nil
  | cons task rest ih =>
    obtain ⟨htask, hrest⟩ := List.forall_mem_cons.mp hts
    rw [formatAll]
    refine settles_bind (settles_format htask rfl hscopes hcount) ?_
    intro document hdocument
    refine settles_bind (ih _ hrest) ?_
    intro outcome houtcome
    exact settles_pure (List.forall_mem_cons.mpr ⟨hdocument, houtcome⟩)

/-- A run in two passes is refused for its configuration, or for a column that a task names. -/
theorem settles_runTwoPass (hscopes : q.entity.ScopesSucceed) (hcount : context.Reliable)
    (params : Params) {ts : List Task} (hts : ∀ task ∈ ts, TaskNames Named q context.perPage task) :
    Settles (fun _ => True) (Blames Named) (runTwoPass custom context q params ts) := by
  refine settles_bind (settles_formatAll hscopes hcount params hts) ?_
  intro outcome houtcome
  refine settles_bind (P := fun _ => True) ?_ fun _ _ => settles_pure trivial
  exact settles_liftOutcome (fun _ _ => trivial) (blames_runAll houtcome q)

/-- A threaded run is refused for the same: what a task leaves is a query of the same entity. -/
theorem settles_runThreaded (hentity : r.entity = q.entity) (hscopes : q.entity.ScopesSucceed)
    (hcount : context.Reliable) (params : Params) {ts : List Task}
    (hts : ∀ task ∈ ts, TaskNames Named q context.perPage task) :
    Settles (fun _ => True) (Blames Named) (runThreaded custom context r params ts) := by
  induction ts generalizing r params with
  | nil => exact settles_pure trivial
  | cons task rest ih =>
    obtain ⟨htask, hrest⟩ := List.forall_mem_cons.mp hts
    rw [runThreaded]
    refine settles_bind (settles_format htask hentity hscopes hcount) ?_
    intro document hdocument
    refine settles_bind (P := fun r' => r'.entity = q.entity) (settles_liftOutcome ?_ ?_) ?_
    -- scopes and columns are those of the entity, which no hook changes
    · intro r' hrun
      obtain ⟨b, hhook, -⟩ := htask
      rw [hhook] at hrun
      exact (Builtin.entity_run hrun).trans hentity
    · exact blames_hook hdocument r
    · intro r' hentity'
      exact ih hentity' _ hrest

/-! ### Calls -/

/-- The column is named by a request of the call that a hook of this library handles. -/
def RequestNames (config : Config) (options : Options m) (q : Query) (params : Params)
    (name : String) : Prop :=
  ∃ stage ∈ stagesOf config options, ∃ request b, params.get? stage = some request ∧
    resolve stage options q.entity config = .ok (.builtin b) ∧
    b.Names q request (options.perPage.getD config.perPage) name

/-- A call is refused for its configuration, or for a column that its requests name. -/
theorem settles_run (custom : String → Handler m) (hhooks : AllBuiltin config options q.entity)
    (hscopes : q.entity.ScopesSucceed) (hcount : (contextOf config options).Reliable)
    (params : Params) :
    Settles (fun _ => True) (Blames (RequestNames config options q params))
      (run custom config options q params) := by
  have htasks : Refuses (tasks config options q.entity params (stagesOf config options)) :=
    refuses_tasks config options q.entity params _
  refine settles_bind (P := fun ts => ∀ task ∈ ts, TaskNames
    (RequestNames config options q params) q (contextOf config options).perPage task)
    (settles_liftOutcome ?_ (htasks.blames _)) ?_
  · intro ts hts task htask
    obtain ⟨b, hb⟩ := isBuiltin_of_tasks hhooks hts task htask
    obtain ⟨hstage, hrequest, hhook⟩ := (mem_tasks_iff hts).mp htask
    -- the columns that a task names are those that the request names for its stage
    rw [hb] at hhook
    exact ⟨b, hb, fun name hname => ⟨task.stage, hstage, task.request, b, hrequest, hhook, hname⟩⟩
  · intro ts hts
    cases config.mode with
    | twoPass => exact settles_runTwoPass hscopes hcount params hts
    | threaded => exact settles_runThreaded rfl hscopes hcount params hts

/-- **Errors that blame no parameters.** If neither the repository (`Repository.Reliable`) nor a
scope (`Entity.ScopesSucceed`) fails, the errors of `Pipeline.run` that do not say that they lie in
its configuration or its parameters (`Error.isConfiguration`) are exactly those of columns that its
parameters name (`RequestNames`): of a field that is searched or ordered by, or of the key of a
page, where `Ident.parse` refuses the text. -/
theorem run_refused_iff (custom : String → Handler m)
    (hhooks : AllBuiltin config options q.entity) (hscopes : q.entity.ScopesSucceed)
    (hcount : ∀ repository, options.repository = some repository → repository.Reliable)
    (params : Params) :
    Ensures (fun outcome : Except Error (Query × Params) => ∀ e, outcome = .error e →
        (e.isConfiguration = false ↔ ∃ name fault, RequestNames config options q params name ∧
          Ident.parse name = .error fault ∧ e = .ofIdent fault))
      (run custom config options q params).run := by
  refine ensures_mono ?_ (settles_run custom hhooks hscopes hcount params)
  rintro outcome ⟨-, hblames⟩ e he
  exact (hblames e he).isConfiguration_eq_false_iff

/-- Products that can be searched for being cheaper than a price. -/
def pricedProduct : Entity :=
  (Entity.empty "product" "products").withSearchScope "cheaper" fun price =>
    .ok ⟨.column "price", [], .lt, price, .and⟩

/-- All priced products. -/
def pricedProducts : Query :=
  ⟨Registry.empty.insert pricedProduct rfl, ⟨⟨'p', 0⟩, "product"⟩, pricedProduct, [], [], [], none,
    none, none⟩

/-- A call that counts seven rows for every query. -/
def countingSeven : Options Id := Options.none.withRepository ⟨fun _ => pure 7, fun _ => pure []⟩

/-- A repository that always counts seven rows never fails. -/
theorem reliable_countingSeven :
    ∀ repository, countingSeven.repository = some repository → repository.Reliable := by
  rintro _ ⟨⟩ q
  exact settles_pure trivial

/-- A product without scopes has none that fails. -/
theorem scopesSucceed_pricedProduct : pricedProduct.ScopesSucceed := by
  refine ⟨?_, nofun, nofun⟩
  intro name scope t hscope
  have hmem := Dict.mem_of_get? hscope
  cases List.mem_singleton.mp hmem
  exact ⟨_, rfl⟩

/-- Nothing else is registered for its stages. -/
theorem allBuiltin_pricedProduct : AllBuiltin .standard countingSeven pricedProduct :=
  allBuiltin_of_hooks nofun nofun nofun

/-- Products below a price, ordered by a text, a page of them. -/
def orderedBy (text : String) : Params :=
  ⟨[("search", .obj [("cheaper", .int 5)]),
    ("sort", .obj [("field", .str text), ("order", .str "asc")]), ("paginate", .obj [])]⟩

/-- An ordering by what is not one column is refused once all parameters are normalised, by the
error of the text that it names. -/
theorem run_refused_iff_twoColumns :
    ∃ e, run Handler.unfinished .standard countingSeven pricedProducts (orderedBy "price, name") =
        throw e ∧ e.isConfiguration = false ∧
      ∃ name fault, RequestNames .standard countingSeven pricedProducts (orderedBy "price, name")
        name ∧ Ident.parse name = .error fault ∧ e = .ofIdent fault := by
  have hrefused := of_ensures_id (run_refused_iff Handler.unfinished (q := pricedProducts)
    allBuiltin_pricedProduct scopesSucceed_pricedProduct reliable_countingSeven
    (orderedBy "price, name"))
  exact ⟨_, rfl, rfl, (hrefused _ rfl).mp rfl⟩

/-- A search for a text that is no column name. -/
def searchedBy (text : String) : Params :=
  ⟨[("search", .obj [("x", .obj [("field", .str text), ("search_type", .str "eq"),
    ("search_term", .int 1)])])]⟩

/-- **A misnamed column blames none.** A search that names what is no column is refused for its
parameters, and `Error.isConfiguration` says that they are not at fault. -/
theorem misnamed_column_not_configuration :
    Query.ofEntity (Registry.empty.insert pricedProduct rfl) "product" = .ok pricedProducts ∧
    AllBuiltin .standard countingSeven pricedProducts.entity ∧
    pricedProducts.entity.ScopesSucceed ∧
    (∀ repository, countingSeven.repository = some repository → repository.Reliable) ∧
    ∃ e, run Handler.unfinished .standard countingSeven pricedProducts
        (searchedBy "no such;column") = throw e ∧
      e.message = "Validation error: Invalid character in identifier `no such;column`: ' '" ∧
      e.isConfiguration = false :=
  ⟨rfl, allBuiltin_pricedProduct, scopesSucceed_pricedProduct, reliable_countingSeven, _, rfl,
    by decide +kernel, rfl⟩

end Pipeline

end Listing
