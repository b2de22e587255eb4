import Listing.Proofs.Pipeline.Advance
import Listing.Proofs.Pipeline.Faults
import Listing.Proofs.Search.Scopes

namespace Listing

/-!
# Scopes as shortcuts

A search may refer to a scope where it could write out the criterion that the scope makes.  A call
gives the same either way, wherever the reference stands, whatever the criterion is and whichever
kind of search handles it: the parameters of the stage have one normal form if the hook takes the
criterion, and otherwise the call fails, if not over the parameters then over the normal form.

* `Pipeline.KeepsScope` — what a hook leaves of a query has the scope still;
* `Pipeline.formatAll_renewed`, `Pipeline.runThreaded_renewed` — runs of tasks whose parameters
  differ, but not in their normal form;
* `Pipeline.run_set`, `Pipeline.run_refused` — calls with other parameters in one stage that have
  the same normal form, and calls with a stage whose normal form its hook refuses;
* `Pipeline.run_scope_alike` — a call that refers to a scope, and one that writes its criterion out.
-/

namespace Pipeline

variable {m : Type → Type} {custom : String → Handler m} {name : String} {value : Json}
  {s : Criterion}

/-- If the scope makes the criterion of the value, it does so for what the hook leaves as well. -/
def KeepsScope (custom : String → Handler m) (name : String) (value : Json) (s : Criterion)
    (hook : Hook) : Prop :=
  ∀ q document r, hook.run custom q document = .ok r →
    StrictSearch.expand q name value = .ok s → StrictSearch.expand r name value = .ok s

/-- A hook of this library leaves the entity, and with it the scopes, as they are. -/
theorem keepsScope_builtin (b : Builtin) : KeepsScope custom name value s (.builtin b) := by
  intro q document r hrun hscope
  have hentity : r.entity = q.entity := Builtin.entity_run hrun
  rw [StrictSearch.expand_congr hentity]
  exact hscope

/-! ### Tasks with other parameters -/

section Renewed

variable {context : Context m} {q : Query} {normal params params' : Params} {ts : List Task}

/-- The documents of the tasks come out at the same place of either parameters. -/
def SetsAlike (ts : List Task) (params params' : Params) : Prop :=
  ∀ documents : List Json, documents.length = ts.length →
    params'.setAll (byStage ts documents) = params.setAll (byStage ts documents)

/-- Where nothing is left to set, the parameters are equal. -/
theorem SetsAlike.eq (h : SetsAlike [] params params') : params' = params := h [] rfl

/-- After the same document is set, parameters still come to the same. -/
theorem SetsAlike.step {task : Task} {rest : List Task}
    (h : SetsAlike (task :: rest) params params') (document : Json) :
    SetsAlike rest (params.set task.stage document) (params'.set task.stage document) := by
  intro documents hlength
  exact h (document :: documents) (congrArg Nat.succ hlength)

variable [Monad m]

/-- Normalising other parameters is the same where each of them has the same normal form. -/
theorem formatAll_renewed
    (hts : ∀ task ∈ ts, task.hook.format custom q (task.renewed normal).request context =
      task.hook.format custom q task.request context) (hparams : SetsAlike ts params params') :
    formatAll custom context q params' (ts.map (Task.renewed normal)) =
      formatAll custom context q params ts := by
  induction ts generalizing params params' with
  | nil => rw [hparams.eq, List.map_nil]
  | cons task rest ih =>
    obtain ⟨hfirst, hrest⟩ := List.forall_mem_cons.mp hts
    rw [List.map_cons, formatAll, formatAll]
    show (task.hook.format custom q (task.renewed normal).request context >>= fun formatted =>
      formatAll custom context q (params'.set task.stage formatted)
        (rest.map (Task.renewed normal)) >>= _) = _
    rw [hfirst]
    -- both runs store the same document, so their parameters come closer
    refine bind_congr fun formatted => ?_
    rw [ih hrest (hparams.step formatted)]
    rfl

variable [LawfulMonad m]

/-- Running other tasks is the same where each has the same normal form against every query that a
run may come to. -/
theorem runThreaded_renewed {P : Query → Prop} (hq : P q)
    (hkeep : ∀ task ∈ ts, ∀ q document r, task.hook.run custom q document = .ok r → P q → P r)
    (hts : ∀ task ∈ ts, ∀ q, P q →
      task.hook.format custom q (task.renewed normal).request context =
        task.hook.format custom q task.request context) (hparams : SetsAlike ts params params') :
    runThreaded custom context q params' (ts.map (Task.renewed normal)) =
      runThreaded custom context q params ts := by
  induction ts generalizing q params params' with
  | nil => rw [hparams.eq, List.map_nil]
  | cons task rest ih =>
    obtain ⟨hfirst, hrest⟩ := List.forall_mem_cons.mp hts
    obtain ⟨hkeepFirst, hkeepRest⟩ := List.forall_mem_cons.mp hkeep
    rw [List.map_cons, runThreaded, runThreaded]
    show (task.hook.format custom q (task.renewed normal).request context >>= fun formatted =>
      liftOutcome (task.hook.run custom q formatted) >>= fun r =>
        runThreaded custom context r (params'.set task.stage formatted)
          (rest.map (Task.renewed normal))) = _
    rw [hfirst q hq]
    refine bind_congr fun formatted => ?_
    -- both go on with the same query
    refine liftOutcome_bind_congr ?_
    intro r hrun
    exact ih (hkeepFirst q formatted r hrun hq) hkeepRest hrest (hparams.step formatted)

variable {config : Config} {options : Options m}

/-- A call gives the same with other parameters in one stage, if they have the same normal form
against every query that it may come to. -/
theorem run_set {P : Query → Prop} {stage : String} {request written : Json}
    (hstage : stage ∈ stagesOf config options) (hrequest : params.get? stage = some request)
    (hwritten : written.isNull = false)
    (hformat : ∀ hook, resolve stage options q.entity config = .ok hook → ∀ r, P r →
      hook.format custom r written (contextOf config options) =
        hook.format custom r request (contextOf config options))
    (hq : P q)
    (hkeep : config.mode = .threaded → ∀ t ∈ stagesOf config options, ∀ hook,
      resolve t options q.entity config = .ok hook →
        ∀ q document r, hook.run custom q document = .ok r → P q → P r) :
    run custom config options q (params.set stage written) =
      run custom config options q params := by
  have hsame : ∀ t ∈ stagesOf config options,
      ((params.set stage written).get? t).isSome = (params.get? t).isSome := by
    intro t _
    by_cases ht : t = stage
    · rw [ht, Params.get?_set_self hwritten, hrequest, Option.isSome_some, Option.isSome_some]
    · rw [Params.get?_set_of_ne ht]
  -- the tasks are the same ones, each with what the other parameters have for its stage
  rw [run, run, tasks_eq_renewed hsame]
  cases hts : tasks config options q.entity params (stagesOf config options) with
  | error e =>
    show liftOutcome (.error e) >>= _ = _
    rw [liftOutcome_error_bind, liftOutcome_error_bind]
  | ok ts =>
    obtain ⟨hsublist, htasks⟩ := tasks_ok hts
    have heach : ∀ task ∈ ts, ∀ r, P r →
        task.hook.format custom r (task.renewed (params.set stage written)).request
            (contextOf config options) =
          task.hook.format custom r task.request (contextOf config options) := by
      intro task htask r hr
      obtain ⟨hfound, hhook⟩ := htasks task htask
      by_cases ht : task.stage = stage
      · rw [ht] at hfound hhook
        have hasked : task.request = request := Option.some.inj (hfound.symm.trans hrequest)
        rw [Task.renewed, ht, Params.get?_set_self hwritten, Option.getD_some, hasked]
        exact hformat task.hook hhook r hr
      · rw [Task.renewed, Params.get?_set_of_ne ht, hfound, Option.getD_some]
    -- a document takes the place of what was written, so it is gone from the answer
    have hsets : SetsAlike ts params (params.set stage written) := by
      intro documents hlength
      refine Params.setAll_set_of_mem (Params.mem_keys_of_get? hrequest) ?_
      rw [map_fst_byStage hlength.symm]
      exact mem_stages_of_tasks hts hstage hrequest
    show liftOutcome (.ok (ts.map (Task.renewed (params.set stage written)))) >>= _ = _
    rw [liftOutcome_ok_bind, liftOutcome_ok_bind]
    cases hmode : config.mode with
    | twoPass =>
      show runTwoPass custom _ q _ _ = runTwoPass custom _ q params ts
      rw [runTwoPass, formatAll_renewed (fun task htask => heach task htask q hq) hsets]
      rfl
    | threaded =>
      refine runThreaded_renewed hq ?_ heach hsets
      intro task htask
      exact hkeep hmode task.stage (hsublist.subset (List.mem_map_of_mem htask)) task.hook
        (htasks task htask).2

/-- A call gives nothing if the hook of one task refuses whatever the parameters of the task are
normalised to against the queries that the call may come to. -/
theorem run_refused {P : Query → Prop} (task : Task)
    (hstage : task.stage ∈ stagesOf config options)
    (hrequest : params.get? task.stage = some task.request)
    (hhook : resolve task.stage options q.entity config = .ok task.hook)
    (hrefused : ∀ r, P r → Yields (fun document => ∀ t u, task.hook.run custom t document ≠ .ok u)
      (task.hook.format custom r task.request (contextOf config options)))
    (hq : P q)
    (hkeep : config.mode = .threaded → ∀ t ∈ stagesOf config options, ∀ hook,
      resolve t options q.entity config = .ok hook →
        ∀ q document r, hook.run custom q document = .ok r → P q → P r) :
    Yields (fun _ => False) (run custom config options q params) := by
  have hmade : ∀ r (made : Task), Yields
      (fun document => P r → made = task → ∀ t u, task.hook.run custom t document ≠ .ok u)
      (made.hook.format custom r made.request (contextOf config options)) := by
    intro r made
    by_cases h : P r ∧ made = task
    · obtain ⟨hr, rfl⟩ := h
      exact yields_mono (fun document hdocument _ _ => hdocument) (hrefused r hr)
    · exact yields_mono (fun document _ hr hmade => absurd ⟨hr, hmade⟩ h) (yields_trivial _)
  refine yields_mono ?_ (yields_advances hmade)
  rintro outcome ⟨ts, documents, hts, hadvances, -⟩
  obtain ⟨hsublist, htasks⟩ := tasks_ok hts
  -- in two passes every task is normalised against the incoming query
  have hkeeps : ∀ t ∈ ts, ∀ before document after, t.hook.run custom before document = .ok after →
      P (config.mode.against q before) → P (config.mode.against q after) := by
    intro t ht before document after hrun
    cases hmode : config.mode with
    | twoPass => exact id
    | threaded =>
      exact hkeep hmode t.stage (hsublist.subset (List.mem_map_of_mem ht)) t.hook (htasks t ht).2
        before document after hrun
  have hstart : P (config.mode.against q q) := by
    cases config.mode with
    | twoPass => exact hq
    | threaded => exact hq
  obtain ⟨against, before, document, after, hagainst, hdocument, hrun⟩ :=
    hadvances.exists_of_mem hstart hkeeps ((mem_tasks_iff hts).mpr ⟨hstage, hrequest, hhook⟩)
  exact hdocument hagainst rfl before after hrun

end Renewed

/-! ### Searches -/

variable [Monad m] [LawfulMonad m] {config : Config} {options : Options m} {q : Query}
  {params : Params} {b : Builtin} {stage : String} {before after : Dict Json}

/-- **Scopes can be written out.** A call of `Pipeline.run` in which a search refers to a scope
gives what it gives with the criterion of the scope (`StrictSearch.expand`) written out, or neither
gives anything (`Alike`).  The reference may stand anywhere in the search, whose entries have one
value for a name; the stages before it leave the scope where it is (`KeepsScope`), which only a
custom hook need not do, and that only where the search is normalised against what they leave. -/
theorem run_scope_alike (custom : String → Handler m) (hb : b.IsSearch)
    (hstage : stage ∈ stagesOf config options)
    (hhook : resolve stage options q.entity config = .ok (.builtin b))
    (hrequest : params.get? stage = some (.obj (before ++ (name, value) :: after)))
    (hlast : name ∉ Dict.keys after) (hscope : StrictSearch.expand q name value = .ok s)
    (hkeep : config.mode = .threaded → ∀ t ∈ stagesOf config options, ∀ label,
      resolve t options q.entity config = .ok (.custom label) →
        KeepsScope custom name value s (.custom label)) :
    Alike (run custom config options q params)
      (run custom config options q
        (params.set stage (.obj (before ++ (name, s.encode) :: after)))) := by
  have hkeeps : config.mode = .threaded → ∀ t ∈ stagesOf config options, ∀ hook,
      resolve t options q.entity config = .ok hook → KeepsScope custom name value s hook := by
    intro hmode t ht hook hresolve
    cases hook with
    | builtin b => exact keepsScope_builtin b
    | custom label => exact hkeep hmode t ht label hresolve
  -- what a scope gives is as good as what it stands for, or neither is taken
  by_cases haccepts : b.Accepts s
  · refine .inl (run_set hstage hrequest rfl ?_ hscope hkeeps).symm
    intro hook hresolve r hr
    obtain rfl : hook = .builtin b := Except.ok.inj (hresolve.symm.trans hhook)
    exact (Builtin.format_scope hb hr haccepts before after _).symm
  · have hset : (params.set stage (.obj (before ++ (name, s.encode) :: after))).get? stage =
        some (.obj (before ++ (name, s.encode) :: after)) := Params.get?_set_self rfl
    -- a reference is refused when it is applied, at the latest
    have hreference : Yields (fun _ => False) (run custom config options q params) :=
      run_refused ⟨stage, .builtin b, _⟩ hstage hrequest hhook
        (fun r hr => Builtin.run_scope_refused hb hr hlast haccepts _) hscope hkeeps
    have hwritten : Yields (fun _ => False) (run custom config options q
        (params.set stage (.obj (before ++ (name, s.encode) :: after)))) :=
      run_refused ⟨stage, .builtin b, _⟩ hstage hset hhook
        (fun r _ => yields_mono (fun _ h => h.elim)
          (Builtin.format_written_refused hb haccepts before after _)) hscope hkeeps
    exact .inr ⟨hreference, hwritten⟩

/-- A hook that lets no more than a number of rows through. -/
def capping (label : String) : Handler Id where
  format _ request _ := pure request
  run q _ := if label = "cap" then .ok (q.withLimit 77) else .error (.notImplemented label "run")

/-- A hook that caps the size of pages keeps scopes. -/
theorem keepsScope_capping (label : String) :
    KeepsScope capping name value s (.custom label) := by
  intro q document r hrun hscope
  simp only [Hook.run, capping] at hrun
  split at hrun
  · cases hrun
    exact hscope
  · cases hrun

/-- A call with a cap before the search. -/
def capped : Options Id :=
  (Options.none.withHook "cap" (.custom "cap")).withStages ["cap", "search"]

/-- An entry that asks for a name. -/
def askedName : Dict Json :=
  [("name", .obj [("search_type", .str "eq"), ("search_term", .str "x")])]

/-- An entry that asks for what is in stock. -/
def askedStock : Dict Json :=
  [("stock", .obj [("search_type", .str "gt"), ("search_term", .int 0)])]

/-- A search with an entry between the two. -/
def askedBetween (entry : Json) : Params :=
  ⟨[("cap", .bool true), ("search", .obj (askedName ++ ("cheaper", entry) :: askedStock))]⟩

/-- Products below a price are found by a scope and by what the scope stands for. -/
theorem run_scope_alike_cheaper :
    ∃ s r normal, StrictSearch.expand pricedProducts "cheaper" (.int 5) = .ok s ∧
      run capping (Config.standard.withMode .threaded) capped pricedProducts
        (askedBetween (.int 5)) = pure (r, normal) ∧
      run capping (Config.standard.withMode .threaded) capped pricedProducts
        (askedBetween s.encode) = pure (r, normal) ∧
      r.selectSql = "SELECT p0.* FROM products AS p0 " ++
        "WHERE p0.name = $1 AND p0.price < $2 AND p0.stock > $3 LIMIT 77" := by
  have hrequest : (askedBetween (.int 5)).get? "search" =
      some (.obj (askedName ++ ("cheaper", .int 5) :: askedStock)) := rfl
  have hlast : "cheaper" ∉ Dict.keys askedStock := by decide
  have hscope : StrictSearch.expand pricedProducts "cheaper" (.int 5) =
      .ok ⟨.column "price", [], .lt, .int 5, .and⟩ := rfl
  have hstage : "search" ∈ stagesOf (Config.standard.withMode .threaded) capped := by decide
  have halike := run_scope_alike capping (.inl rfl) hstage rfl hrequest hlast hscope
    fun _ _ _ label _ => keepsScope_capping label
  refine ⟨_, _, _, hscope, rfl, ?_, ?_⟩
  -- the first run succeeds, so they are not alike by both failing
  · rcases halike with hsame | ⟨hnone, -⟩
    · exact hsame.symm
    · exact (of_ensures_id hnone _ rfl).elim
  · decide +kernel

end Pipeline

end Listing
