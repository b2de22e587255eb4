import Listing.Proofs.Pipeline.Narrowing
import Listing.Proofs.Pipeline.Progress

namespace Listing.Pipeline

/-!
# What a call does, in order

A call of the pipeline normalises the parameters of its tasks and applies them, and its repository
is called in between.  In both modes this carries out a plan that the tasks determine, operation by
operation, up to the first one that fails: normalising is always against the query so far, and what
is normalised first is applied first.

* `Pipeline.Call`, `Pipeline.recording` — calls of a repository, and the repository that records
  them;
* `Pipeline.Operation`, `Pipeline.plan`, `Pipeline.execute` — what is done with a task, what is to
  be done in either mode, and what is done of it;
* `Pipeline.Follows`, `Pipeline.follows_execute` — each operation is the next one of the plan, and
  none comes after one that fails;
* `Pipeline.counted_execute` — only a page by offset calls the repository, for one count;
* `Pipeline.runAll_execute` — the query that an operation starts from.
-/

/-! ### Recorded repositories -/

/-- A call of a repository, with its answer. -/
inductive Call
  | count (q : Query) (answer : Except Error Int64)
  | all (q : Query) (answer : Except Error (List Row))

/-- Runs that keep a record of the calls of the repository. -/
abbrev Recorded := StateM (List Call)

/-- The repository that records its calls; an answer may depend on the calls before it. -/
def recording (count : List Call → Query → Except Error Int64)
    (all : List Call → Query → Except Error (List Row)) : Repository Recorded where
  count q := ExceptT.mk fun calls => (count calls q, calls ++ [.count q (count calls q)])
  all q := ExceptT.mk fun calls => (all calls q, calls ++ [.all q (all calls q)])

/-- The repository, if there is one, records its calls. -/
def Records (repository : Option (Repository Recorded)) : Prop :=
  ∀ known, repository = some known → ∃ count all, known = recording count all

variable {α β : Type}

/-- What a run gives after the calls of a record, and the record after it. -/
def runFrom (calls : List Call) (x : ExceptT Error Recorded α) : Except Error α × List Call :=
  x calls

/-- A run goes on after a step that succeeds, with the calls made so far. -/
theorem runFrom_bind_ok {calls calls' : List Call} {x : ExceptT Error Recorded α} {a : α}
    (h : runFrom calls x = (.ok a, calls')) (f : α → ExceptT Error Recorded β) :
    runFrom calls (x >>= f) = runFrom calls' (f a) := by
  show ExceptT.bindCont f (runFrom calls x).1 (runFrom calls x).2 = _
  rw [h]
  rfl

/-- It stops at a step that fails. -/
theorem runFrom_bind_error {calls calls' : List Call} {x : ExceptT Error Recorded α} {e : Error}
    (h : runFrom calls x = (.error e, calls')) (f : α → ExceptT Error Recorded β) :
    runFrom calls (x >>= f) = (.error e, calls') := by
  show ExceptT.bindCont f (runFrom calls x).1 (runFrom calls x).2 = _
  rw [h]
  rfl

/-- A step that does not ask the repository makes no call. -/
theorem runFrom_liftOutcome (calls : List Call) (outcome : Except Error α) :
    runFrom calls (liftOutcome outcome) = (outcome, calls) := rfl

/-! ### Operations -/

/-- What a call does with a task: it normalises the parameters against a query, with the calls of
the repository that this takes, or it applies the document to a query. -/
inductive Operation
  | format (task : Task) (q : Query) (calls : List Call) (outcome : Except Error Json)
  | run (task : Task) (q : Query) (document : Json) (outcome : Except Error Query)

/-- What is to be done with a task. -/
inductive Step
  | format (task : Task)
  | run (task : Task)

/-- The task of a step. -/
def Step.task : Step → Task
  | format task => task
  | run task => task

namespace Operation

/-- The step that the operation carries out. -/
def step : Operation → Step
  | format task _ _ _ => .format task
  | run task _ _ _ => .run task

/-- The task of an operation. -/
def task (op : Operation) : Task := op.step.task

/-- The query that the operation starts from. -/
def query : Operation → Query
  | format _ q _ _ => q
  | run _ q _ _ => q

/-- The calls of the repository in the course of the operation. -/
def calls : Operation → List Call
  | format _ _ calls _ => calls
  | run _ _ _ _ => []

/-- The error that the operation ends with, if it fails. -/
def error? : Operation → Option Error
  | format _ _ _ (.error e) => some e
  | run _ _ _ (.error e) => some e
  | _ => none

/-- The hook and the document of an operation that applies one. -/
def applied? : Operation → Option (Hook × Json)
  | format _ _ _ _ => none
  | run task _ document _ => some (task.hook, document)

/-- The operation calls the repository for one count of its query at most, and only to normalise a
page by offset; it fails where the count does. -/
def Counted : Operation → Prop
  | format task q calls outcome => calls = [] ∨ (task.hook = .builtin .offsetPage ∧
      ∃ answer, calls = [.count q answer] ∧ ∀ e, answer = .error e → outcome = .error e)
  | run _ _ _ _ => True

end Operation

/-- What is to be done with all tasks in a mode. -/
def plan : FormatMode → List Task → List Step
  | .twoPass, ts => ts.map .format ++ ts.map .run
  | .threaded, ts => ts.flatMap fun task => [.format task, .run task]

variable (custom : String → Handler Recorded) (context : Context Recorded)

/-- The operations that carry out steps, from a query, documents that wait to be applied, and the
calls that were made before. -/
def execute : Query → List Json → List Call → List Step → List Operation
  | _, _, _, [] => []
  | q, waiting, calls, .format task :: steps =>
    match runFrom calls (task.hook.format custom q task.request context) with
    | (.error e, calls') => [.format task q (calls'.drop calls.length) (.error e)]
    | (.ok document, calls') =>
      .format task q (calls'.drop calls.length) (.ok document) ::
        execute q (waiting ++ [document]) calls' steps
  | q, waiting, calls, .run task :: steps =>
    -- a plan normalises what it applies, so there is always a document
    match task.hook.run custom q (waiting.headD .null) with
    | .error e => [.run task q (waiting.headD .null) (.error e)]
    | .ok r => .run task q (waiting.headD .null) (.ok r) :: execute r waiting.tail calls steps

/-- The operations of a call. -/
def trace (config : Config) (options : Options Recorded) (q : Query) (params : Params) :
    List Operation :=
  match tasks config options q.entity params (stagesOf config options) with
  | .error _ => []
  | .ok ts => execute custom (contextOf config options) q [] [] (plan config.mode ts)

/-! ### Following a plan -/

/-- The operations carry out the steps in order, all of them or up to one that fails. -/
inductive Follows : List Step → List Operation → Prop
  | nil : Follows [] []
  | last (op : Operation) {steps : List Step} {e : Error} (herror : op.error? = some e) :
    Follows (op.step :: steps) [op]
  | cons (op : Operation) {steps : List Step} {ops : List Operation} (hok : op.error? = none)
    (hrest : Follows steps ops) : Follows (op.step :: steps) (op :: ops)

variable {custom context} {q r : Query} {waiting : List Json} {calls : List Call}
  {steps : List Step} {ops before after : List Operation} {op : Operation} {task : Task}

/-- The operations are an initial segment of the steps. -/
theorem Follows.prefix (h : Follows steps ops) : ops.map Operation.step <+: steps := by
  induction h with
  | nil => exact List.prefix_rfl
  | last _ _ => exact List.cons_prefix_cons.mpr ⟨rfl, List.nil_prefix⟩
  | cons _ _ _ ih => exact List.cons_prefix_cons.mpr ⟨rfl, ih⟩

/-- No operation comes after one that fails. -/
theorem Follows.error?_eq_none (h : Follows steps (before ++ op :: after)) :
    ∀ earlier ∈ before, earlier.error? = none := by
  induction before generalizing steps with
  | nil => exact fun earlier hearlier => absurd hearlier List.not_mem_nil
  | cons first rest ih =>
    generalize hops : first :: rest ++ op :: after = all at h
    cases h with
    | nil => cases hops
    | last _ _ =>
      rw [List.cons_append, List.cons.injEq] at hops
      exact absurd hops.2 (by simp)
    | cons _ hok hrest =>
      rw [List.cons_append, List.cons.injEq] at hops
      obtain ⟨rfl, rfl⟩ := hops
      exact List.forall_mem_cons.mpr ⟨hok, ih hrest⟩

/-- What is executed follows the steps. -/
theorem follows_execute (q : Query) (waiting : List Json) (calls : List Call) (steps : List Step) :
    Follows steps (execute custom context q waiting calls steps) := by
  induction steps generalizing q waiting calls with
  | nil => exact .nil
  | cons first steps ih =>
    cases first with
    | format task =>
      rw [execute]
      -- a step that fails is the last, and the trace ends before the plan does
      split
      · exact .last (.format task q _ _) rfl
      · exact .cons (.format task q _ _) rfl (ih ..)
    | run task =>
      rw [execute]
      split
      · exact .last (.run task q _ _) rfl
      · exact .cons (.run task q _ _) rfl (ih ..)

/-! ### Calls -/

/-- The operation of a task leads to an outcome and to calls that are counted. -/
def FormatsCounted (task : Task) (q : Query) (calls : List Call)
    (x : ExceptT Error Recorded Json) : Prop :=
  ∃ outcome made, runFrom calls x = (outcome, calls ++ made) ∧
    (Operation.format task q made outcome).Counted

/-- A step that makes no call has none to count. -/
theorem formatsCounted_of_no_call {x : ExceptT Error Recorded Json} (outcome : Except Error Json)
    (h : runFrom calls x = (outcome, calls)) : FormatsCounted task q calls x := by
  refine ⟨outcome, [], ?_, .inl rfl⟩
  rw [h, List.append_nil]

/-- A hook of this library calls a recording repository for one count at most, and only for a page
by offset. -/
theorem formatsCounted_of_isBuiltin (custom : String → Handler Recorded)
    (hrecords : Records context.repository) (hhook : IsBuiltin task.hook) (q : Query)
    (calls : List Call) :
    FormatsCounted task q calls (task.hook.format custom q task.request context) := by
  obtain ⟨b, hhook⟩ := hhook
  rw [hhook, Hook.format]
  cases b with
  | search | lenientSearch | sort | lenientSort | keysetPage =>
    exact formatsCounted_of_no_call _ (runFrom_liftOutcome ..)
  | offsetPage =>
    rw [Builtin.format, OffsetPage.normalise]
    cases OffsetPage.read q task.request context.perPage with
    | error e => exact formatsCounted_of_no_call (.error e) rfl
    | ok page =>
      cases hrepository : context.repository with
      | none => exact formatsCounted_of_no_call (.error (.missingKey "paginate" "repo")) rfl
      | some repository =>
        obtain ⟨count, all, rfl⟩ := hrecords repository hrepository
        refine ⟨(count calls q).map fun total => (page.withTotal total).encode,
          [.count q (count calls q)], ?_, .inr ⟨hhook, _, rfl, ?_⟩⟩
        · have hcount : runFrom calls ((recording count all).count q) =
              (count calls q, calls ++ [.count q (count calls q)]) := rfl
          -- the one question to the repository, and then the answer or the fault
          simp only [OffsetPage.precompute, map_bind, map_pure]
          cases hanswer : count calls q with
          | error e =>
            rw [hanswer] at hcount
            exact runFrom_bind_error hcount _
          | ok total =>
            rw [hanswer] at hcount
            exact runFrom_bind_ok hcount _
        · intro e he
          rw [he]
          rfl

/-- What comes of normalising the parameters of a task is the first operation. -/
theorem execute_format {made : List Call} {outcome : Except Error Json} (hformat :
      runFrom calls (task.hook.format custom q task.request context) = (outcome, calls ++ made)) :
    execute custom context q waiting calls (.format task :: steps) =
      .format task q made outcome ::
        match outcome with
        | .error _ => []
        | .ok document =>
          execute custom context q (waiting ++ [document]) (calls ++ made) steps := by
  rw [execute, hformat]
  cases outcome with
  | error e => simp only [List.drop_left]
  | ok document => simp only [List.drop_left]

/-- What comes of applying the document that waits first is the first operation. -/
theorem execute_run {document : Json} {outcome : Except Error Query}
    (hrun : task.hook.run custom q document = outcome) :
    execute custom context q (document :: waiting) calls (.run task :: steps) =
      .run task q document outcome ::
        match outcome with
        | .error _ => []
        | .ok r => execute custom context r waiting calls steps := by
  rw [execute, List.headD_cons, hrun]
  cases outcome with
  | error e => rfl
  | ok r => rfl

/-- Each operation calls the repository for one count of its query at most. -/
theorem counted_execute (hrecords : Records context.repository)
    (hsteps : ∀ step ∈ steps, IsBuiltin step.task.hook) (q : Query) (waiting : List Json)
    (calls : List Call) : ∀ op ∈ execute custom context q waiting calls steps, op.Counted := by
  induction steps generalizing q waiting calls with
  | nil => exact fun op hop => absurd hop List.not_mem_nil
  | cons first steps ih =>
    obtain ⟨hfirst, hrest⟩ := List.forall_mem_cons.mp hsteps
    cases first with
    | format task =>
      have hhook : IsBuiltin task.hook := hfirst
      obtain ⟨outcome, made, hformat, hcounted⟩ :=
        formatsCounted_of_isBuiltin custom hrecords hhook q calls
      rw [execute_format hformat]
      refine List.forall_mem_cons.mpr ⟨hcounted, ?_⟩
      cases outcome with
      -- nothing is done after a step that fails
      | error e => exact fun op hop => absurd hop List.not_mem_nil
      | ok document => exact ih hrest _ _ _
    | run task =>
      rw [execute]
      split
      · exact List.forall_mem_singleton.mpr trivial
      · exact List.forall_mem_cons.mpr ⟨trivial, ih hrest _ _ _⟩

/-! ### Queries -/

/-- Each operation starts from the query that the documents applied before it lead to. -/
theorem runAll_execute (h : execute custom context q waiting calls steps = before ++ op :: after) :
    runAll custom q (before.filterMap Operation.applied?) = .ok op.query := by
  -- along what comes before the operation, from the query that is left each time
  induction before generalizing q waiting calls steps with
  | nil =>
    cases steps with
    | nil => cases h
    | cons first steps =>
      cases first with
      | format task =>
        rw [execute] at h
        split at h <;> cases h <;> rfl
      | run task =>
        rw [execute] at h
        split at h <;> cases h <;> rfl
  | cons first before ih =>
    cases steps with
    | nil => cases h
    | cons step steps =>
      cases step with
      | format task =>
        rw [execute] at h
        split at h
        · simp at h
        · obtain ⟨rfl, hrest⟩ := List.cons.inj h
          exact ih hrest
      | run task =>
        rw [execute] at h
        split at h
        · simp at h
        · rename_i r hrun
          obtain ⟨rfl, hrest⟩ := List.cons.inj h
          show runAll custom q ((task.hook, waiting.headD .null) :: _) = _
          rw [runAll_cons, hrun]
          exact ih hrest

end Listing.Pipeline
