import Listing.Proofs.Pipeline.Trace

namespace Listing.Pipeline

/-!
# When a call reaches the database

The operations of a call make the calls of the repository that the pipeline makes, and the pipeline
fails where one of them does.  So what holds of the operations holds of the pipeline: it looks up
all hooks first, it counts for pages by offset alone, at most once for each of their turns, and it
calls the repository no more once something has failed.

* `Pipeline.Mirrors` — operations that do what a run does;
* `Pipeline.mirrors_runThreaded`, `Pipeline.mirrors_runTwoPass` — the operations of a plan, in
  either mode;
* `Pipeline.plan_threaded_split`, `Pipeline.plan_twoPass_split` — what comes before a stage is
  normalised;
* `Pipeline.calls_of_run` — when a call reaches the database, and with which queries.
-/

variable {custom : String → Handler Recorded} {context : Context Recorded} {config : Config}
  {options : Options Recorded} {q : Query} {params : Params} {calls record : List Call}
  {ts : List Task} {task : Task} {ops before after : List Operation} {op : Operation}
  {steps more : List Step}

/-! ### Operations of a run -/

/-- The operations make the calls of the run, the run fails with the error of one of them, and if it
does not fail, the documents that they apply lead to its query. -/
structure Mirrors (custom : String → Handler Recorded) (calls : List Call) (q : Query)
    (result : Except Error (Query × Params) × List Call) (ops : List Operation) : Prop where
  calls_eq : result.2 = calls ++ ops.flatMap Operation.calls
  error_iff : ∀ e, result.1 = .error e ↔ ∃ op ∈ ops, op.error? = some e
  runAll_eq : ∀ r normal, result.1 = .ok (r, normal) →
    runAll custom q (ops.filterMap Operation.applied?) = .ok r

variable {result : Except Error (Query × Params) × List Call} {document : Json} {made : List Call}

/-- A run that has nothing left to do makes no more calls. -/
theorem mirrors_done (calls : List Call) (q : Query) (params : Params) :
    Mirrors custom calls q (.ok (q, params), calls) [] where
  calls_eq := by simp
  error_iff := by simp
  runAll_eq := by
    rintro r normal ⟨⟩
    rfl

/-- A run that stops at an operation has made the calls of that operation. -/
theorem mirrors_failed (calls : List Call) (op : Operation) {e : Error} (h : op.error? = some e) :
    Mirrors custom calls q (.error e, calls ++ op.calls) [op] where
  calls_eq := by simp
  error_iff := by simp [h]
  runAll_eq := by
    rintro r normal ⟨⟩

/-- Applying a document calls nothing. -/
theorem mirrors_run_failed (calls : List Call) (task : Task) (q : Query) (document : Json)
    (e : Error) :
    Mirrors custom calls q (.error e, calls) [.run task q document (.error e)] := by
  have h : Mirrors custom calls q (.error e, calls ++ []) _ :=
    mirrors_failed calls (.run task q document (.error e)) rfl
  rw [List.append_nil] at h
  exact h

/-- A run goes on after it has normalised the parameters of a task. -/
theorem Mirrors.cons_format (h : Mirrors custom (calls ++ made) q result ops) (against : Query) :
    Mirrors custom calls q result (.format task against made (.ok document) :: ops) where
  calls_eq := by simp [h.calls_eq, Operation.calls]
  error_iff := by simp [h.error_iff, Operation.error?]
  runAll_eq := h.runAll_eq

/-- A run goes on after it has applied a document, from the query that this leaves. -/
theorem Mirrors.cons_run {r : Query} (hrun : task.hook.run custom q document = .ok r)
    (h : Mirrors custom calls r result ops) :
    Mirrors custom calls q result (.run task q document (.ok r) :: ops) where
  calls_eq := by simp [h.calls_eq, Operation.calls]
  error_iff := by simp [h.error_iff, Operation.error?]
  runAll_eq := by
    intro final normal hfinal
    show runAll custom q ((task.hook, document) :: ops.filterMap Operation.applied?) = .ok final
    rw [runAll_cons, hrun]
    exact h.runAll_eq final normal hfinal

/-- A threaded run normalises and applies task by task. -/
theorem mirrors_runThreaded (hrecords : Records context.repository)
    (hts : ∀ task ∈ ts, IsBuiltin task.hook) (q : Query) (params : Params) (calls : List Call) :
    Mirrors custom calls q (runFrom calls (runThreaded custom context q params ts))
      (execute custom context q [] calls (plan .threaded ts)) := by
  induction ts generalizing q params calls with
  | nil => exact mirrors_done calls q params
  | cons task rest ih =>
    obtain ⟨htask, hrest⟩ := List.forall_mem_cons.mp hts
    obtain ⟨outcome, made, hformat, -⟩ :=
      formatsCounted_of_isBuiltin custom hrecords htask q calls
    show Mirrors custom calls q _ (execute custom context q [] calls
      (.format task :: .run task :: plan .threaded rest))
    -- the plan alternates, so each document is applied before the next is made
    rw [runThreaded, execute_format hformat]
    cases outcome with
    | error e =>
      rw [runFrom_bind_error hformat]
      exact mirrors_failed calls (.format task q made (.error e)) rfl
    | ok document =>
      rw [runFrom_bind_ok hformat]
      refine Mirrors.cons_format ?_ q
      show Mirrors custom (calls ++ made) q _
        (execute custom context q [document] (calls ++ made) _)
      cases hrun : task.hook.run custom q document with
      | error e =>
        rw [execute_run hrun, runFrom_bind_error (runFrom_liftOutcome _ (.error e))]
        exact mirrors_run_failed _ task q document e
      | ok r =>
        rw [execute_run hrun, runFrom_bind_ok (runFrom_liftOutcome _ (.ok r))]
        exact (ih hrest r _ _).cons_run hrun

/-- Normalising all tasks makes a document of each, and then the run goes on with these. -/
theorem mirrors_formatAll_bind (hrecords : Records context.repository)
    (hts : ∀ task ∈ ts, IsBuiltin task.hook) (q : Query) {waiting : List Json}
    {next : List (Hook × Json) × Params → ExceptT Error Recorded (Query × Params)}
    (hnext : ∀ documents params calls, ts.length = documents.length →
      Mirrors custom calls q (runFrom calls (next (byHook ts documents, params)))
        (execute custom context q (waiting ++ documents) calls more))
    (params : Params) (calls : List Call) :
    Mirrors custom calls q (runFrom calls (formatAll custom context q params ts >>= next))
      (execute custom context q waiting calls (ts.map .format ++ more)) := by
  -- the rest of the run is generalised, for each turn hands its document on to it
  induction ts generalizing waiting next params calls with
  | nil =>
    have h := hnext [] params calls rfl
    rw [List.append_nil] at h
    exact h
  | cons task rest ih =>
    obtain ⟨htask, hrest⟩ := List.forall_mem_cons.mp hts
    obtain ⟨outcome, made, hformat, -⟩ :=
      formatsCounted_of_isBuiltin custom hrecords htask q calls
    rw [formatAll, bind_assoc, List.map_cons, List.cons_append, execute_format hformat]
    cases outcome with
    | error e =>
      rw [runFrom_bind_error hformat]
      exact mirrors_failed calls (.format task q made (.error e)) rfl
    | ok document =>
      rw [runFrom_bind_ok hformat, bind_assoc]
      refine Mirrors.cons_format (ih hrest ?_ _ _) q
      intro documents params calls hlength
      rw [List.append_assoc]
      exact hnext (document :: documents) params calls (congrArg Nat.succ hlength)

/-- Applying the documents of all tasks is the second half of a run in two passes. -/
theorem mirrors_runAll (custom : String → Handler Recorded) (context : Context Recorded)
    {documents : List Json} (hlength : ts.length = documents.length) (q : Query)
    (params : Params) (calls : List Call) :
    Mirrors custom calls q ((runAll custom q (byHook ts documents)).map (·, params), calls)
      (execute custom context q documents calls (ts.map .run)) := by
  induction ts generalizing q documents with
  | nil => exact mirrors_done calls q params
  | cons task rest ih =>
    -- there is a document for each task, since all have been normalised
    cases documents with
    | nil => cases hlength
    | cons document documents =>
      show Mirrors custom calls q
        ((runAll custom q ((task.hook, document) :: byHook rest documents)).map _, calls) _
      rw [runAll_cons, List.map_cons]
      cases hrun : task.hook.run custom q document with
      | error e =>
        rw [execute_run hrun]
        exact mirrors_run_failed calls task q document e
      | ok r =>
        rw [execute_run hrun]
        exact (ih (Nat.succ.inj hlength) r).cons_run hrun

/-- A run in two passes normalises the parameters of all tasks and then applies them. -/
theorem mirrors_runTwoPass (hrecords : Records context.repository)
    (hts : ∀ task ∈ ts, IsBuiltin task.hook) (q : Query) (params : Params) (calls : List Call) :
    Mirrors custom calls q (runFrom calls (runTwoPass custom context q params ts))
      (execute custom context q [] calls (plan .twoPass ts)) := by
  refine mirrors_formatAll_bind hrecords hts q ?_ params calls
  intro documents params calls hlength
  have h := mirrors_runAll custom context hlength q params calls
  show Mirrors custom calls q (runFrom calls (liftOutcome (runAll custom q (byHook ts documents))
    >>= fun r => pure (r, params))) (execute custom context q documents calls _)
  cases hall : runAll custom q (byHook ts documents) with
  | error e =>
    rw [hall] at h
    exact h
  | ok r =>
    rw [hall] at h
    exact h

/-! ### Before a stage is normalised -/

/-- Every step of the plan is one of a task. -/
theorem task_mem_of_mem_plan {mode : FormatMode} {step : Step} (h : step ∈ plan mode ts) :
    step.task ∈ ts := by
  cases mode with
  | twoPass =>
    rcases List.mem_append.mp h with hformat | hrun
    · obtain ⟨t, ht, rfl⟩ := List.mem_map.mp hformat
      exact ht
    · obtain ⟨t, ht, rfl⟩ := List.mem_map.mp hrun
      exact ht
  | threaded =>
    obtain ⟨t, ht, hstep⟩ := List.mem_flatMap.mp h
    simp only [List.mem_cons, List.not_mem_nil, or_false] at hstep
    rcases hstep with rfl | rfl <;> exact ht

/-- In the threaded mode the earlier tasks have been normalised and applied. -/
theorem plan_threaded_split (h : plan .threaded ts = steps ++ .format task :: more) :
    ∃ earlier later, ts = earlier ++ task :: later ∧ steps = plan .threaded earlier := by
  induction ts generalizing steps with
  | nil => simp [plan] at h
  | cons first rest ih =>
    replace h : .format first :: .run first :: plan .threaded rest =
      steps ++ .format task :: more := h
    cases steps with
    | nil =>
      obtain ⟨hfirst, -⟩ := List.cons.inj h
      cases hfirst
      exact ⟨[], rest, rfl, rfl⟩
    | cons step steps =>
      obtain ⟨rfl, happly⟩ := List.cons.inj h
      -- a task that is normalised stands at an even place, after whole pairs of steps
      cases steps with
      | nil => cases (List.cons.inj happly).1
      | cons step steps =>
        obtain ⟨rfl, hrest⟩ := List.cons.inj happly
        obtain ⟨earlier, later, rfl, rfl⟩ := ih hrest
        exact ⟨first :: earlier, later, rfl, rfl⟩

/-- In two passes the earlier tasks have been normalised, and nothing has been applied. -/
theorem plan_twoPass_split (h : plan .twoPass ts = steps ++ .format task :: more) :
    ∃ earlier later, ts = earlier ++ task :: later ∧ steps = earlier.map .format := by
  rw [plan] at h
  -- the second half of the plan stays as it is in the induction over the first
  generalize hruns : ts.map Step.run = runs at h
  have hnone : Step.format task ∉ runs := by
    rw [← hruns]
    simp
  clear hruns
  induction ts generalizing steps with
  | nil =>
    rw [List.map_nil, List.nil_append] at h
    exact absurd (h ▸ List.mem_append_right steps List.mem_cons_self) hnone
  | cons first rest ih =>
    cases steps with
    | nil =>
      obtain ⟨hfirst, -⟩ := List.cons.inj h
      cases hfirst
      exact ⟨[], rest, rfl, rfl⟩
    | cons step steps =>
      obtain ⟨rfl, hrest⟩ := List.cons.inj h
      obtain ⟨earlier, later, rfl, rfl⟩ := ih hrest
      exact ⟨first :: earlier, later, rfl, rfl⟩

/-- Before a task is normalised, only earlier tasks have had anything done. -/
theorem plan_split {mode : FormatMode} (h : plan mode ts = steps ++ .format task :: more) :
    ∃ earlier later, ts = earlier ++ task :: later ∧ ∀ step ∈ steps, step.task ∈ earlier := by
  cases mode with
  | twoPass =>
    obtain ⟨earlier, later, hts, rfl⟩ := plan_twoPass_split h
    refine ⟨earlier, later, hts, ?_⟩
    intro step hstep
    obtain ⟨t, ht, rfl⟩ := List.mem_map.mp hstep
    exact ht
  | threaded =>
    obtain ⟨earlier, later, hts, rfl⟩ := plan_threaded_split h
    exact ⟨earlier, later, hts, fun step hstep => task_mem_of_mem_plan hstep⟩

/-- The plan is what was done before an operation, its own step, and what is left. -/
theorem Follows.plan_eq (h : Follows steps (before ++ op :: after)) :
    ∃ more, steps = before.map Operation.step ++ op.step :: more := by
  obtain ⟨rest, hrest⟩ := h.prefix
  refine ⟨after.map Operation.step ++ rest, ?_⟩
  rw [← hrest]
  simp

/-- An operation that calls the repository normalises parameters. -/
theorem step_of_calls (h : op.calls ≠ []) : op.step = .format op.task := by
  cases op with
  | format => rfl
  | run => exact absurd rfl h

/-! ### Unknown hooks -/

/-- Finding a hook fails for an unknown stage alone. -/
theorem resolve_error {entity : Entity} {stage : String} {e : Error}
    (h : resolve stage options entity config = .error e) : e = .unknownHook stage := by
  unfold resolve at h
  split at h
  · cases h
  · exact (Except.error.inj h).symm

/-- A stage with parameters and without a hook stops the call before it does anything. -/
theorem tasks_error {entity : Entity} {stages : List String} {stage : String}
    (hstage : stage ∈ stages) (hpresent : params.contains stage = true)
    (hnone : ∀ hook, resolve stage options entity config ≠ .ok hook) :
    ∃ missing, tasks config options entity params stages = .error (.unknownHook missing) := by
  induction stages with
  | nil => cases hstage
  | cons first rest ih =>
    rw [tasks]
    cases hrequest : params.get? first with
    | none =>
      -- hrest@@1
      rcases List.mem_cons.mp hstage with rfl | hrest
      · rw [Params.contains, hrequest] at hpresent
        cases hpresent
      · exact ih hrest
    | some request =>
      cases hhook : resolve first options entity config with
      | error e =>
        rw [resolve_error hhook]
        exact ⟨first, rfl⟩
      | ok hook =>
        rcases List.mem_cons.mp hstage with rfl | hrest
        · exact absurd hhook (hnone hook)
        · obtain ⟨missing, hmissing⟩ := ih hrest
          simp only
          rw [hmissing]
          exact ⟨missing, rfl⟩

/-! ### Calls of a run -/

/-- The trace of a call that finds its hooks does what the call does. -/
theorem mirrors_run (custom : String → Handler Recorded) (hrecords : Records options.repository)
    (hts : ∀ task ∈ ts, IsBuiltin task.hook)
    (htasks : tasks config options q.entity params (stagesOf config options) = .ok ts) :
    Mirrors custom [] q (runFrom [] (run custom config options q params))
      (trace custom config options q params) := by
  rw [run, runFrom_bind_ok (runFrom_liftOutcome [] _ |>.trans (by rw [htasks])), trace, htasks]
  cases hmode : config.mode with
  | twoPass => exact mirrors_runTwoPass hrecords hts q params []
  | threaded => exact mirrors_runThreaded hrecords hts q params []

/-- In the default order only the search comes before the ordering. -/
theorem search_of_before {earlier later : List Task} {t : Task}
    (hsublist : ((earlier ++ task :: later).map Task.stage).Sublist Config.standard.stages)
    (hstage : task.stage ≠ "paginate") (ht : t ∈ earlier) : t.stage = "search" := by
  obtain ⟨a, b, rfl⟩ := List.append_of_mem ht
  have hpair : [t.stage, task.stage].Sublist Config.standard.stages := by
    refine List.Sublist.trans ?_ hsublist
    simp
  simp only [Config.standard, List.cons_sublist_cons', List.nil_sublist, and_true,
    List.sublist_nil, reduceCtorEq, and_false, or_false, false_or] at hpair
  rcases hpair with ⟨-, hpage⟩ | ⟨hsearch, -⟩
  · exact absurd hpage hstage
  · exact hsearch

/-- Nothing comes after an operation that fails. -/
theorem Follows.after_eq_nil {e : Error} (h : Follows steps (before ++ op :: after))
    (herror : op.error? = some e) : after = [] := by
  cases after with
  | nil => rfl
  | cons next rest =>
    have hmore : before ++ op :: next :: rest = (before ++ [op]) ++ next :: rest := by simp
    rw [hmore] at h
    have hnone := h.error?_eq_none op (List.mem_append_right before (List.mem_singleton_self op))
    rw [herror] at hnone
    cases hnone

/-- Nothing is applied while parameters are normalised. -/
theorem applied?_eq_nil {earlier : List Task}
    (h : before.map Operation.step = earlier.map Step.format) :
    before.filterMap Operation.applied? = [] := by
  rw [List.filterMap_eq_nil_iff]
  intro op hop
  have hstep : op.step ∈ earlier.map Step.format := h ▸ List.mem_map_of_mem hop
  obtain ⟨t, -, ht⟩ := List.mem_map.mp hstep
  cases op with
  | format => rfl
  | run => cases ht

/-- If normalising fails in the default order before the page, the repository has been called only
if the search or the stage that fails is handled as a page by offset. -/
theorem calls_eq_nil_of_error {mode : FormatMode} {against : Query} {e : Error}
    (hfollows : Follows (plan mode ts) ops) (hcounted : ∀ op ∈ ops, op.Counted)
    (hsublist : (ts.map Task.stage).Sublist Config.standard.stages)
    (hfails : Operation.format task against calls (.error e) ∈ ops)
    (hstage : task.stage ≠ "paginate")
    (hpages : ∀ t ∈ ts, t.stage = "search" ∨ t.stage = task.stage → t.hook ≠ .builtin .offsetPage) :
    ops.flatMap Operation.calls = [] := by
  obtain ⟨before, after, rfl⟩ := List.append_of_mem hfails
  obtain rfl := hfollows.after_eq_nil (e := e) rfl
  obtain ⟨more, hplan⟩ := hfollows.plan_eq
  obtain ⟨earlier, later, rfl, hearlier⟩ := plan_split hplan
  rw [List.flatMap_eq_nil_iff]
  intro op hop
  -- whatever was done belongs to the stage that fails or to the search before it
  have htask : op.task ∈ earlier ++ task :: later ∧
      (op.task.stage = "search" ∨ op.task.stage = task.stage) := by
    rcases List.mem_append.mp hop with hbefore | hlast
    · have hmem := hearlier op.step (List.mem_map_of_mem hbefore)
      exact ⟨List.mem_append_left _ hmem, .inl (search_of_before hsublist hstage hmem)⟩
    · rw [List.mem_singleton.mp hlast]
      exact ⟨List.mem_append_right earlier List.mem_cons_self, .inr rfl⟩
  have hhook := hpages op.task htask.1 htask.2
  have hop := hcounted op hop
  cases op with
  | run => rfl
  | format =>
    rcases hop with hnone | ⟨hoffset, -⟩
    · exact hnone
    · exact absurd hoffset hhook

/-- **Calls follow the plan.** When `Pipeline.run` reaches the database, and with which queries, by
the operations of its `trace` and the `record` of its calls.  A stage without a hook stops it before
it does anything.  Otherwise the operations follow the `plan` of the mode (`Follows`) and make the
calls of the run (`Mirrors`), none after one that fails.  Only a page by offset makes one, for a
count (`Operation.Counted`): in two passes of the incoming query and before anything is applied, in
the threaded mode of the query that all earlier stages lead to.  So in the default order a search or
an ordering that cannot be normalised leaves the repository alone, unless `Builtin.offsetPage`
handles it or the search before it. -/
theorem calls_of_run (custom : String → Handler Recorded)
    (hhooks : AllBuiltin config options q.entity) (hrecords : Records options.repository)
    {outcome : Except Error (Query × Params)}
    (hrun : runFrom [] (run custom config options q params) = (outcome, record))
    (htrace : trace custom config options q params = ops) :
    (∀ stage ∈ stagesOf config options, params.contains stage = true →
      (∀ hook, resolve stage options q.entity config ≠ .ok hook) →
      ops = [] ∧ record = [] ∧ ∃ missing, outcome = .error (.unknownHook missing)) ∧
    ∀ ts, tasks config options q.entity params (stagesOf config options) = .ok ts →
      Mirrors custom [] q (outcome, record) ops ∧ Follows (plan config.mode ts) ops ∧
      (∀ op ∈ ops, op.Counted) ∧
      (∀ before op after, ops = before ++ op :: after → op.calls ≠ [] →
        (config.mode = .twoPass → op.query = q ∧ before.filterMap Operation.applied? = []) ∧
        (config.mode = .threaded → ∃ earlier later, ts = earlier ++ op.task :: later ∧
          before.map Operation.step = plan .threaded earlier ∧
          runAll custom q (before.filterMap Operation.applied?) = .ok op.query)) ∧
      (stagesOf config options = Config.standard.stages →
        ∀ task against calls e, .format task against calls (.error e) ∈ ops →
          task.stage = "search" ∨ task.stage = "sort" →
          (∀ stage, stage = "search" ∨ stage = task.stage →
            resolve stage options q.entity config ≠ .ok (.builtin .offsetPage)) →
          record = []) := by
  refine ⟨?_, ?_⟩
  · intro stage hstage hpresent hnone
    obtain ⟨missing, htasks⟩ := tasks_error hstage hpresent hnone
    rw [trace, htasks] at htrace
    rw [run, runFrom_bind_error (runFrom_liftOutcome [] _ |>.trans (by rw [htasks]))] at hrun
    cases htrace
    cases hrun
    exact ⟨rfl, rfl, missing, rfl⟩
  · intro ts htasks
    have hts : ∀ task ∈ ts, IsBuiltin task.hook := isBuiltin_of_tasks hhooks htasks
    have hmirrors := mirrors_run custom hrecords hts htasks
    rw [hrun, htrace] at hmirrors
    have hexecute :
        execute custom (contextOf config options) q [] [] (plan config.mode ts) = ops := by
      rw [← htrace, trace, htasks]
    have hfollows : Follows (plan config.mode ts) ops := hexecute ▸ follows_execute q [] [] _
    have hcounted : ∀ op ∈ ops, op.Counted := by
      rw [← hexecute]
      exact counted_execute hrecords (fun step hstep => hts _ (task_mem_of_mem_plan hstep)) q [] []
    refine ⟨hmirrors, hfollows, hcounted, ?_, ?_⟩
    · intro before op after hops hcalls
      rw [hops] at hfollows hexecute
      have hreached := runAll_execute hexecute
      obtain ⟨more, hplan⟩ := hfollows.plan_eq
      -- only normalising asks the repository
      rw [step_of_calls hcalls] at hplan
      refine ⟨fun hmode => ?_, fun hmode => ?_⟩
      · rw [hmode] at hplan
        obtain ⟨earlier, later, -, hbefore⟩ := plan_twoPass_split hplan
        have hnone := applied?_eq_nil hbefore
        rw [hnone] at hreached
        exact ⟨(Except.ok.inj hreached).symm, hnone⟩
      · rw [hmode] at hplan
        obtain ⟨earlier, later, hts, hbefore⟩ := plan_threaded_split hplan
        exact ⟨earlier, later, hts, hbefore, hreached⟩
    · intro hstages task against calls e hfails hstage hpages
      obtain ⟨hsublist, hfound⟩ := tasks_ok htasks
      rw [hstages] at hsublist
      refine hmirrors.calls_eq.trans ?_
      -- a search or an ordering fails before the page is counted, in the standard order of stages
      have hpage : task.stage ≠ "paginate" := by
        rcases hstage with hstage | hstage <;> rw [hstage] <;> decide
      refine calls_eq_nil_of_error hfollows hcounted hsublist hfails hpage ?_
      intro t ht hstage hoffset
      exact hpages t.stage hstage (hoffset ▸ (hfound t ht).2)

/-- A repository that counts eight rows and records that it was asked. -/
def eightRows : Repository Recorded := recording (fun _ _ => .ok 8) fun _ _ => .ok []

/-- An empty search, and an ordering by a scope that the entity does not have. -/
def unknownScope : Params :=
  ⟨[("search", .obj []), ("sort", .obj [("scope", .str "bogus")]), ("paginate", .obj [])]⟩

/-- The call of the default configuration, with a repository that counts eight rows. -/
def counted : Options Recorded := Options.none.withRepository eightRows

/-- In the default order the unknown scope is found out before the rows are counted. -/
theorem calls_of_run_unknownScope :
    runFrom [] (run Handler.unfinished .standard counted tenantProducts unknownScope) =
      (.error (.unknownScope .sort "bogus" "product"), []) := by
  have hhooks : AllBuiltin .standard counted tenantProducts.entity :=
    allBuiltin_of_hooks nofun nofun nofun
  have hrecords : Records counted.repository := by
    rintro _ ⟨⟩
    exact ⟨_, _, rfl⟩
  have htrace : trace Handler.unfinished .standard counted tenantProducts unknownScope =
      [.format ⟨"search", .builtin .search, .obj []⟩ tenantProducts [] (.ok (.obj [])),
        .format ⟨"sort", .builtin .sort, .obj [("scope", .str "bogus")]⟩ tenantProducts []
          (.error (.unknownScope .sort "bogus" "product"))] := rfl
  have hcalls := (calls_of_run Handler.unfinished hhooks hrecords rfl htrace).2 _ rfl
  -- neither of the two is a page, so no count comes first
  have hpages : ∀ stage, stage = "search" ∨ stage = "sort" →
      resolve stage counted tenantProducts.entity .standard ≠ .ok (.builtin .offsetPage) := by
    rintro _ (rfl | rfl) hhook <;> cases hhook
  have hrecord := hcalls.2.2.2.2 rfl _ _ _ _ (List.mem_cons_of_mem _ List.mem_cons_self) (.inr rfl)
    hpages
  exact Prod.ext rfl hrecord

/-- The same call, with the search handled as a page. -/
def countedFirst : Options Recorded := counted.withHook "search" (.builtin .offsetPage)

/-- **A page in front is counted.** A search that `Builtin.offsetPage` handles is counted before the
unknown scope of the ordering is found out, also in the default order. -/
theorem early_page_counts :
    AllBuiltin .standard countedFirst tenantProducts.entity ∧ Records countedFirst.repository ∧
    stagesOf .standard countedFirst = Config.standard.stages ∧
    (∃ task against calls e, Operation.format task against calls (.error e) ∈
      trace Handler.unfinished .standard countedFirst tenantProducts unknownScope ∧
      task.stage = "sort" ∧ task.hook = .builtin .sort) ∧
    runFrom [] (run Handler.unfinished .standard countedFirst tenantProducts unknownScope) =
      (.error (.unknownScope .sort "bogus" "product"), [.count tenantProducts (.ok 8)]) := by
  refine ⟨?_, ?_, rfl, ?_, rfl⟩
  · intro stage hstage hook hhook
    simp only [stagesOf, countedFirst, counted, Options.none, Options.withRepository,
      Options.withHook, Config.standard, Option.getD_none, List.mem_cons, List.not_mem_nil,
      or_false] at hstage
    rcases hstage with rfl | rfl | rfl <;> cases hhook <;> exact ⟨_, rfl⟩
  · rintro _ ⟨⟩
    exact ⟨_, _, rfl⟩
  -- the second operation of the trace, after the one that has counted
  · refine ⟨⟨"sort", .builtin .sort, .obj [("scope", .str "bogus")]⟩, tenantProducts, [],
      .unknownScope .sort "bogus" "product", ?_, rfl, rfl⟩
    have htrace : trace Handler.unfinished .standard countedFirst tenantProducts unknownScope =
        [.format ⟨"search", .builtin .offsetPage, .obj []⟩ tenantProducts
            [.count tenantProducts (.ok 8)] (.ok (OffsetPage.encode ⟨1, 10, 8, 1⟩)),
          .format ⟨"sort", .builtin .sort, .obj [("scope", .str "bogus")]⟩ tenantProducts []
            (.error (.unknownScope .sort "bogus" "product"))] := rfl
    rw [htrace]
    exact List.mem_cons_of_mem _ List.mem_cons_self

end Listing.Pipeline
