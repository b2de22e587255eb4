import Listing.Pipeline.Params
import Listing.Stage.Config
import Listing.Stage.Handler

namespace Listing

/-!
# The pipeline

A request turns a query into the query that it asks for, and its parameters into normalised ones.
Stages without parameters are passed over and need no hook; the hooks of all others are looked up
before anything else is done.

* `Pipeline.tasks` — the stages with parameters, each with its hook;
* `Pipeline.runTwoPass` — normalises all parameters against the incoming query, then applies them;
* `Pipeline.runThreaded` — normalises and applies stage by stage, each on the query so far;
* `Pipeline.run` — the pipeline in the mode of its configuration.
-/

namespace Pipeline

/-- A stage with its hook and its parameters. -/
structure Task where
  stage : String
  hook : Hook
  request : Json

variable {m : Type → Type} [Monad m]

/-- The stages of a call. -/
def stagesOf (config : Config) (options : Options m) : List String :=
  options.stages.getD config.stages

/-- The stages with parameters, each with its hook. -/
def tasks (config : Config) (options : Options m) (entity : Entity) (params : Params) :
    List String → Except Error (List Task)
  | [] => .ok []
  | stage :: rest =>
    match params.get? stage with
    | none => tasks config options entity params rest
    | some request => do
      -- the request is taken here, so a stage that is listed twice starts from it both times
      let hook ← resolve stage options entity config
      let more ← tasks config options entity params rest
      return ⟨stage, hook, request⟩ :: more

/-- What hooks may use in a call. -/
def contextOf (config : Config) (options : Options m) : Context m :=
  ⟨options.repository, options.perPage.getD config.perPage⟩

/-- Normalises the parameters of all tasks against one query. -/
def formatAll (custom : String → Handler m) (context : Context m) (q : Query) (params : Params) :
    List Task → ExceptT Error m (List (Hook × Json) × Params)
  | [] => return ([], params)
  | task :: rest => do
    let formatted ← task.hook.format custom q task.request context
    let (more, params) ← formatAll custom context q (params.set task.stage formatted) rest
    return ((task.hook, formatted) :: more, params)

/-- Applies normalised parameters in order. -/
def runAll (custom : String → Handler m) (q : Query) (ready : List (Hook × Json)) :
    Except Error Query :=
  ready.foldlM (fun q entry => entry.1.run custom q entry.2) q

/-- Normalises the parameters of all tasks, then applies them. -/
def runTwoPass (custom : String → Handler m) (context : Context m) (q : Query) (params : Params)
    (tasks : List Task) : ExceptT Error m (Query × Params) := do
  let (ready, params) ← formatAll custom context q params tasks
  let q ← liftOutcome (runAll custom q ready)
  return (q, params)

/-- Normalises and applies task by task. -/
def runThreaded (custom : String → Handler m) (context : Context m) (q : Query) (params : Params) :
    List Task → ExceptT Error m (Query × Params)
  | [] => return (q, params)
  | task :: rest => do
    let formatted ← task.hook.format custom q task.request context
    -- the next task is normalised against the query that this one leaves
    let q ← liftOutcome (task.hook.run custom q formatted)
    runThreaded custom context q (params.set task.stage formatted) rest

/-- Transforms a query as a request asks, and normalises the request. -/
def run (custom : String → Handler m) (config : Config) (options : Options m) (q : Query)
    (params : Params) : ExceptT Error m (Query × Params) := do
  let tasks ← liftOutcome (tasks config options q.entity params (stagesOf config options))
  let context := contextOf config options
  match config.mode with
  | .twoPass => runTwoPass custom context q params tasks
  | .threaded => runThreaded custom context q params tasks

end Pipeline

end Listing
