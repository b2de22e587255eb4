import Listing.Proofs.Pipeline.Advance
import Listing.Proofs.Pipeline.Narrowing

namespace Listing

/-!
# Parameters that a call leaves alone

A call writes where a stage of it has parameters, and nowhere else.  Its answer has the keys of the
request, in their order; what is no stage of the call, or has no parameters, stays as it was; and a
stage with parameters holds what its hook made of them, however often it is listed.

* `Params.keys_setAll` — setting stages that are there adds none and moves none;
* `Pipeline.Advances.last_of_mem` — a stage holds the document of its last task;
* `Pipeline.Framed` — where the parameters of a call may have changed, and to what;
* `Pipeline.run_framed` — what a run changes, and that it can do without the other stages.
-/

/-! ### Stages put in place -/

namespace Params

variable {p : Params} {key : String} {entries : List (String × Json)}

/-- Setting stages that are there adds none and moves none. -/
theorem keys_setAll (h : ∀ entry ∈ entries, entry.1 ∈ Dict.keys p.entries) :
    Dict.keys (p.setAll entries).entries = Dict.keys p.entries := by
  induction entries generalizing p with
  | nil => rfl
  | cons entry rest ih =>
    obtain ⟨hfirst, hrest⟩ := List.forall_mem_cons.mp h
    have hset : Dict.keys (p.set entry.1 entry.2).entries = Dict.keys p.entries := keys_set hfirst _
    show Dict.keys ((p.set entry.1 entry.2).setAll rest).entries = _
    rw [ih (fun later hlater => hset ▸ hrest later hlater), hset]

/-- What is set last stands at the end. -/
theorem find_setAll_of_last {value : Json} (h : key ∉ entries.map Prod.fst) :
    Dict.get? (p.setAll ((key, value) :: entries)).entries key = some value := by
  show Dict.get? ((p.set key value).setAll entries).entries key = some value
  rw [find_setAll_of_not_mem h, set, Dict.get?_insert_self]

end Params

namespace Pipeline

variable {m : Type → Type} {custom : String → Handler m} {Made : Query → Task → Json → Prop}
  {mode : FormatMode} {q₀ q r : Query} {ts : List Task} {documents : List Json}

/-! ### What a call changes -/

/-- A stage holds the document of its last task, which was made against the query that the tasks
before it lead to. -/
theorem Advances.last_of_mem {stage : String} (h : Advances custom Made mode q₀ q ts documents r)
    (hstage : stage ∈ ts.map Task.stage) :
    ∃ earlier task later made reached document, ts = earlier ++ task :: later ∧
      task.stage = stage ∧ stage ∉ later.map Task.stage ∧
      Advances custom Made mode q₀ q earlier made reached ∧
      Made (mode.against q₀ reached) task document ∧
      ∀ params : Params,
        Dict.get? (params.setAll (byStage ts documents)).entries stage = some document := by
  induction h with
  | nil => exact absurd hstage List.not_mem_nil
  | @cons q q' r task rest document documents hmade hrun hrest ih =>
    by_cases hlater : stage ∈ rest.map Task.stage
    · -- the stage is listed again, and only its last task counts
      obtain ⟨earlier, last, later, made, reached, found, rfl, hlast, hnot, hadvances, hfound,
        hget⟩ := ih hlater
      exact ⟨task :: earlier, last, later, document :: made, reached, found, rfl, hlast, hnot,
        .cons hmade hrun hadvances, hfound, fun params => hget (params.set task.stage document)⟩
    · -- nothing later writes where this task did
      have htask : stage = task.stage :=
        (List.mem_cons.mp (List.map_cons ▸ hstage)).resolve_right hlater
      have hnot : task.stage ∉ (byStage rest documents).map Prod.fst := by
        rw [map_fst_byStage hrest.length_eq, ← htask]
        exact hlater
      refine ⟨[], task, rest, [], q, document, rfl, htask.symm, hlater, .nil q, hmade, ?_⟩
      intro params
      rw [htask]
      exact Params.find_setAll_of_last hnot

variable {config : Config} {options : Options m} {params : Params}

/-- Where the parameters of a call may have changed, and to what. -/
structure Framed (custom : String → Handler m) (Made : Query → Task → Json → Prop)
    (config : Config) (options : Options m) (q : Query) (params : Params)
    (outcome : Query × Params) : Prop where
  /-- The keys are those of the request, in their order. -/
  keys : Dict.keys outcome.2.entries = Dict.keys params.entries
  /-- What is no stage of the call, or has no parameters, is there as it was. -/
  untouched : ∀ key, key ∉ stagesOf config options ∨ params.get? key = none →
    Dict.get? outcome.2.entries key = Dict.get? params.entries key
  /-- A stage with parameters holds what its hook made of them when it was last listed. -/
  formatted : ∀ stage ∈ stagesOf config options, ∀ request, params.get? stage = some request →
    ∃ hook, resolve stage options q.entity config = .ok hook ∧
      ∃ earlier later made reached document,
        tasks config options q.entity params (stagesOf config options) =
          .ok (earlier ++ ⟨stage, hook, request⟩ :: later) ∧
        stage ∉ later.map Task.stage ∧
        Advances custom Made config.mode q q earlier made reached ∧
        Made (config.mode.against q reached) ⟨stage, hook, request⟩ document ∧
        Dict.get? outcome.2.entries stage = some document

/-- Documents of the tasks of a call, put in place, change what the call may change. -/
theorem framed_of_advances {outcome : Query × Params}
    (hts : tasks config options q.entity params (stagesOf config options) = .ok ts)
    (hadvances : Advances custom Made config.mode q q ts documents outcome.1)
    (hparams : outcome.2 = params.setAll (byStage ts documents)) :
    Framed custom Made config options q params outcome := by
  obtain ⟨hsublist, htasks⟩ := tasks_ok hts
  have hstages : (byStage ts documents).map Prod.fst = ts.map Task.stage :=
    map_fst_byStage hadvances.length_eq
  refine ⟨?_, ?_, ?_⟩
  · rw [hparams]
    refine Params.keys_setAll ?_
    intro entry hentry
    have hstage : entry.1 ∈ ts.map Task.stage := hstages ▸ List.mem_map_of_mem hentry
    obtain ⟨task, htask, hname⟩ := List.mem_map.mp hstage
    rw [← hname]
    exact Params.mem_keys_of_get? (htasks task htask).1
  -- no task writes there: the stage is not listed, or has no parameters
  · intro key hkey
    rw [hparams]
    refine Params.find_setAll_of_not_mem ?_
    rw [hstages]
    intro hmem
    obtain ⟨task, htask, rfl⟩ := List.mem_map.mp hmem
    rcases hkey with hnot | hnone
    · exact hnot (hsublist.subset hmem)
    · rw [(htasks task htask).1] at hnone
      cases hnone
  · -- a stage with parameters has a task, of the hook and the request that the call gives it
    intro stage hstage request hrequest
    obtain ⟨earlier, task, later, made, reached, document, rfl, rfl, hnot, hearlier, hmade, hget⟩ :=
      hadvances.last_of_mem (mem_stages_of_tasks hts hstage hrequest)
    obtain ⟨hsame, hhook⟩ := htasks task (List.mem_append_right _ List.mem_cons_self)
    rw [hrequest] at hsame
    cases hsame
    exact ⟨task.hook, hhook, earlier, later, made, reached, document, hts, hnot, hearlier, hmade,
      hparams ▸ hget params⟩

variable [Monad m] [LawfulMonad m]

/-- **Calls change only their stages.** `Pipeline.run` changes its parameters only where a stage has
some, to what the hook of the stage makes of them (`Framed`); and it gives the same, whatever hooks
the other stages have or lack, when only the stages with parameters are listed. -/
theorem run_framed (custom : String → Handler m) (config : Config) (options : Options m) (q : Query)
    (params : Params) {Made : Query → Task → Json → Prop}
    (hmade : ∀ q task, Yields (Made q task)
      (task.hook.format custom q task.request (contextOf config options))) :
    Yields (Framed custom Made config options q params) (run custom config options q params) ∧
      run custom config
          (options.withStages ((stagesOf config options).filter params.contains)) q params =
        run custom config options q params := by
  constructor
  · refine yields_mono ?_ (yields_advances hmade)
    rintro outcome ⟨ts, documents, hts, hadvances, hparams⟩
    exact framed_of_advances hts hadvances hparams
  -- the stages of a call are listed beside its hooks, and have no part in finding these
  · have hlisted (listed : List String) :
        tasks config (options.withStages listed) q.entity params (stagesOf config options) =
          tasks config options q.entity params (stagesOf config options) :=
      tasks_congr fun stage _ => rfl
    rw [run, run]
    show (liftOutcome (tasks config (options.withStages _) q.entity params
      ((stagesOf config options).filter params.contains)) >>= _) = _
    rw [tasks_filter, hlisted]
    rfl

/-- A call that lists a stage without a hook, a stage that is not in the request, and the search
twice. -/
def searchedAround : Options Id :=
  Options.none.withStages ["sort", "search", "audit", "search"]

/-- A search by name. -/
def namedX : Dict Json :=
  [("name", .obj [("search_type", .str "eq"), ("search_term", .str "x")])]

/-- The search between what is no stage and a stage with null. -/
def notedSearch : Params := ⟨[("note", .int 3), ("search", .obj namedX), ("audit", .null)]⟩

/-- Only the search changes, to what the hook makes of it, though the stage without parameters has
no hook. -/
theorem run_framed_searchedAround :
    resolve "audit" searchedAround tenantProducts.entity .standard =
        .error (.unknownHook "audit") ∧
    ∃ r normal document,
      run Handler.unfinished .standard searchedAround tenantProducts notedSearch =
        pure (r, normal) ∧
      Dict.keys normal.entries = ["note", "search", "audit"] ∧
      Dict.get? normal.entries "note" = some (.int 3) ∧
      Dict.get? normal.entries "audit" = some .null ∧
      Dict.get? normal.entries "search" = some document ∧
      Builtin.search.format tenantProducts (.obj namedX) (contextOf .standard searchedAround) =
        pure document ∧
      run Handler.unfinished .standard (searchedAround.withStages ["search", "search"])
        tenantProducts notedSearch = pure (r, normal) := by
  have hmade : ∀ q (task : Task), Yields
      (Formats Handler.unfinished (contextOf .standard searchedAround) q task)
      (task.hook.format Handler.unfinished q task.request (contextOf .standard searchedAround)) :=
    fun q task => yields_of_eq_pure fun document hdocument => hdocument
  obtain ⟨hframed, hsame⟩ := run_framed Handler.unfinished .standard searchedAround tenantProducts
    notedSearch hmade
  have h := of_ensures_id hframed _ rfl
  obtain ⟨hook, hhook, _, _, _, _, document, _, _, _, hmade, hget⟩ :=
    h.formatted "search" (by decide) (.obj namedX) rfl
  cases hhook
  exact ⟨rfl, _, _, document, rfl, h.keys, h.untouched "note" (.inl (by decide)),
    h.untouched "audit" (.inr rfl), hget, hmade, hsame⟩

end Pipeline

end Listing
