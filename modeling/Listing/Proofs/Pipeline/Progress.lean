import Listing.Pipeline.Run
import Listing.Proofs.Dict
import Listing.Proofs.Outcome

namespace Listing

/-!
# Runs that succeed

What a run of the pipeline consists of when it succeeds and its repository has no effects: the
document that each task was normalised to, the query that each task left, and the parameters in
which the documents stand at last.

* `Params.setAll` — the parameters of several stages put in place;
* `Pipeline.Formats` — the parameters of a task normalise to a document;
* `Pipeline.Threads` — tasks are normalised and applied one after the other;
* `Pipeline.runTwoPass_eq_pure`, `Pipeline.runThreaded_eq_pure` — what a run in either mode is;
* `Pipeline.tasks_congr`, `Pipeline.tasks_filter` — tasks depend on the hooks of stages, and stages
  without parameters have none;
* `Pipeline.tasks_ok`, `Pipeline.mem_tasks_iff`, `Pipeline.tasks_eq_renewed` — the tasks of a call,
  and those of another call with the same stages.
-/

/-! ### Parameters in place -/

namespace Params

variable {p : Params} {stage other : String} {value : Json} {entries : List (String × Json)}

/-- Puts the parameters of several stages in place, one after the other. -/
def setAll (p : Params) (entries : List (String × Json)) : Params :=
  entries.foldl (fun p entry => p.set entry.1 entry.2) p

/-- A stage has a value if one is stored that is not null. -/
theorem get?_eq_some_iff :
    p.get? stage = some value ↔ Dict.get? p.entries stage = some value ∧ value.isNull = false := by
  simp [get?]

/-- Setting parameters that are there changes nothing. -/
theorem set_of_get? (h : p.get? stage = some value) : p.set stage value = p := by
  rw [set, Dict.insert_of_get? (get?_eq_some_iff.mp h).1]

/-- What is set is there, unless it is null. -/
theorem get?_set_self (h : value.isNull = false) :
    (p.set stage value).get? stage = some value :=
  get?_eq_some_iff.mpr ⟨Dict.get?_insert_self stage value p.entries, h⟩

/-- Other stages keep their values. -/
theorem get?_set_of_ne (h : other ≠ stage) : (p.set stage value).get? other = p.get? other := by
  rw [get?, get?, set, Dict.get?_insert_of_ne h]

/-- The value that is set last stays. -/
theorem set_set_self (value' : Json) :
    (p.set stage value').set stage value = p.set stage value := by
  rw [set, set, set, Dict.insert_insert_self]

/-- A stage with parameters is among the keys, and so is one with null. -/
theorem mem_keys_of_get? (h : p.get? stage = some value) : stage ∈ Dict.keys p.entries :=
  List.mem_map_of_mem (Dict.mem_of_get? (get?_eq_some_iff.mp h).1)

/-- Setting a stage that is there adds none and moves none. -/
theorem keys_set (h : stage ∈ Dict.keys p.entries) (value : Json) :
    Dict.keys (p.set stage value).entries = Dict.keys p.entries := by
  rw [set, Dict.keys_insert, if_pos h]

/-- Setting two stages, one of which is there already, can be done in either order. -/
theorem set_comm (hne : stage ≠ other) (h : stage ∈ Dict.keys p.entries) (value' : Json) :
    (p.set other value').set stage value = (p.set stage value).set other value' := by
  rw [set, set, set, set, Dict.insert_comm hne (Dict.contains_iff_mem_keys.mpr h)]

/-- What is not set stays as it is, a null included. -/
theorem find_setAll_of_not_mem (h : stage ∉ entries.map Prod.fst) :
    Dict.get? (p.setAll entries).entries stage = Dict.get? p.entries stage := by
  induction entries generalizing p with
  | nil => rfl
  | cons entry rest ih =>
    rw [List.map_cons, List.mem_cons, not_or] at h
    show Dict.get? ((p.set entry.1 entry.2).setAll rest).entries stage = _
    rw [ih h.2, set, Dict.get?_insert_of_ne h.1]

/-- A stage that is not set keeps its value. -/
theorem get?_setAll_of_not_mem (h : stage ∉ entries.map Prod.fst) :
    (p.setAll entries).get? stage = p.get? stage := by
  rw [get?, get?, find_setAll_of_not_mem h]

/-- What stands in a stage that was set is one of the values that were set there. -/
theorem get?_setAll_of_mem (hvalues : ∀ entry ∈ entries, entry.2.isNull = false)
    (h : stage ∈ entries.map Prod.fst) :
    ∃ value, (stage, value) ∈ entries ∧ (p.setAll entries).get? stage = some value := by
  induction entries generalizing p with
  | nil => exact absurd h List.not_mem_nil
  | cons entry rest ih =>
    obtain ⟨hfirst, hrest⟩ := List.forall_mem_cons.mp hvalues
    -- the last entry of a stage is the one that stays
    by_cases hmem : stage ∈ rest.map Prod.fst
    · obtain ⟨value, hvalue, hget⟩ := ih (p := p.set entry.1 entry.2) hrest hmem
      exact ⟨value, List.mem_cons_of_mem _ hvalue, hget⟩
    · have hstage : stage = entry.1 := by
        rw [List.map_cons, List.mem_cons] at h
        exact h.resolve_right hmem
      refine ⟨entry.2, hstage ▸ List.mem_cons_self, ?_⟩
      rw [setAll, List.foldl_cons]
      show (setAll (p.set entry.1 entry.2) rest).get? stage = _
      rw [get?_setAll_of_not_mem hmem, hstage, get?_set_self hfirst]

/-- Setting a stage that is set again later changes nothing, if it is there already. -/
theorem setAll_set_of_mem (hpresent : stage ∈ Dict.keys p.entries)
    (h : stage ∈ entries.map Prod.fst) : (p.set stage value).setAll entries = p.setAll entries := by
  induction entries generalizing p with
  | nil => exact absurd h List.not_mem_nil
  | cons entry rest ih =>
    show ((p.set stage value).set entry.1 entry.2).setAll rest = (p.set entry.1 entry.2).setAll rest
    -- the value that is set first is replaced when the entry of its stage comes
    by_cases hstage : entry.1 = stage
    · rw [hstage, set_set_self]
    · have hmem : stage ∈ rest.map Prod.fst := by
        rw [List.map_cons, List.mem_cons] at h
        exact h.resolve_left fun e => hstage e.symm
      have hstill : stage ∈ Dict.keys (p.set entry.1 entry.2).entries := by
        rw [set, Dict.keys_insert]
        split
        · exact hpresent
        · exact List.mem_append_left _ hpresent
      rw [← set_comm (fun e => hstage e.symm) hpresent]
      exact ih hstill hmem

/-- Setting everything to what is there changes nothing. -/
theorem setAll_of_get? (h : ∀ entry ∈ entries, p.get? entry.1 = some entry.2) :
    p.setAll entries = p := by
  induction entries with
  | nil => rfl
  | cons entry rest ih =>
    obtain ⟨hfirst, hrest⟩ := List.forall_mem_cons.mp h
    show (p.set entry.1 entry.2).setAll rest = p
    rw [set_of_get? hfirst]
    exact ih hrest

end Params

namespace Pipeline

/-! ### The tasks of a call -/

section Tasks

variable {m : Type → Type} {config : Config} {options : Options m} {entity : Entity}
  {params normal : Params} {stages : List String} {ts : List Task}

/-- Only the hooks of the stages matter, not what else a call or its configuration says. -/
theorem tasks_congr {config' : Config} {options' : Options m}
    (h : ∀ stage ∈ stages, resolve stage options' entity config' =
      resolve stage options entity config) :
    tasks config' options' entity params stages = tasks config options entity params stages := by
  induction stages with
  | nil => rfl
  | cons stage rest ih =>
    obtain ⟨hfirst, hrest⟩ := List.forall_mem_cons.mp h
    rw [tasks, tasks, ih hrest, hfirst]

/-- Stages without parameters have no task. -/
theorem tasks_filter (config : Config) (options : Options m) (entity : Entity) (params : Params)
    (stages : List String) :
    tasks config options entity params (stages.filter params.contains) =
      tasks config options entity params stages := by
  induction stages with
  | nil => rfl
  | cons stage rest ih =>
    by_cases hcontains : params.contains stage = true
    · rw [List.filter_cons_of_pos hcontains, tasks, tasks, ih]
    · have hnone : params.get? stage = none := by
        simpa [Params.contains] using hcontains
      rw [List.filter_cons_of_neg hcontains, ih, tasks, hnone]

/-- A task belongs to a stage of the call, with the hook and the parameters of the stage. -/
theorem tasks_ok (h : tasks config options entity params stages = .ok ts) :
    (ts.map Task.stage).Sublist stages ∧ ∀ task ∈ ts, params.get? task.stage = some task.request ∧
      resolve task.stage options entity config = .ok task.hook := by
  induction stages generalizing ts with
  | nil =>
    cases h
    exact ⟨List.Sublist.refl [], fun task htask => absurd htask List.not_mem_nil⟩
  | cons stage rest ih =>
    rw [tasks] at h
    split at h
    · obtain ⟨hsublist, htasks⟩ := ih h
      exact ⟨hsublist.cons stage, htasks⟩
    · rename_i request hrequest
      obtain ⟨hook, hhook, h⟩ := Except.bind_ok h
      obtain ⟨more, hmore, h⟩ := Except.bind_ok h
      cases h
      obtain ⟨hsublist, htasks⟩ := ih hmore
      exact ⟨hsublist.cons_cons stage, List.forall_mem_cons.mpr ⟨⟨hrequest, hhook⟩, htasks⟩⟩

/-- The tasks are those of the stages with parameters, each with the hook of its stage. -/
theorem mem_tasks_iff (h : tasks config options entity params stages = .ok ts) {task : Task} :
    task ∈ ts ↔ task.stage ∈ stages ∧ params.get? task.stage = some task.request ∧
      resolve task.stage options entity config = .ok task.hook := by
  constructor
  · intro htask
    obtain ⟨hsublist, htasks⟩ := tasks_ok h
    exact ⟨hsublist.subset (List.mem_map_of_mem htask), htasks task htask⟩
  · rintro ⟨hstage, hrequest, hhook⟩
    induction stages generalizing ts with
    | nil => cases hstage
    | cons stage rest ih =>
      rw [tasks] at h
      split at h
      · rename_i hnone
        refine ih h ((List.mem_cons.mp hstage).resolve_left ?_)
        rintro rfl
        rw [hnone] at hrequest
        cases hrequest
      · rename_i request' hrequest'
        obtain ⟨hook', hhook', h⟩ := Except.bind_ok h
        obtain ⟨more, hmore, h⟩ := Except.bind_ok h
        cases h
        -- a stage that is repeated has the same task each time
        rcases List.mem_cons.mp hstage with rfl | hlater
        · rw [hrequest] at hrequest'
          rw [hhook] at hhook'
          cases hrequest'
          cases hhook'
          exact List.mem_cons_self
        · exact List.mem_cons_of_mem _ (ih hmore hlater)

/-- The tasks of some stages and then of others are those of both, one after the other. -/
theorem tasks_append {others : List String}
    (h : tasks config options entity params (stages ++ others) = .ok ts) :
    ∃ first second, tasks config options entity params stages = .ok first ∧
      tasks config options entity params others = .ok second ∧ ts = first ++ second := by
  induction stages generalizing ts with
  | nil => exact ⟨[], ts, rfl, h, rfl⟩
  | cons stage rest ih =>
    rw [List.cons_append, tasks] at h
    rw [tasks]
    split at h
    · exact ih h
    · rename_i request _
      obtain ⟨hook, hhook, h⟩ := Except.bind_ok h
      obtain ⟨more, hmore, h⟩ := Except.bind_ok h
      cases h
      obtain ⟨first, second, hfirst, hsecond, rfl⟩ := ih hmore
      refine ⟨⟨stage, hook, request⟩ :: first, second, ?_, hsecond, rfl⟩
      rw [hhook, hfirst]
      rfl

/-- Every stage with parameters has a task. -/
theorem mem_stages_of_tasks {stages : List String}
    (h : tasks config options entity params stages = .ok ts) {stage : String}
    (hstage : stage ∈ stages) {request : Json} (hrequest : params.get? stage = some request) :
    stage ∈ ts.map Task.stage := by
  obtain ⟨before, after, rfl⟩ := List.append_of_mem hstage
  obtain ⟨first, second, -, hsecond, rfl⟩ := tasks_append h
  rw [tasks, hrequest] at hsecond
  obtain ⟨hook, -, hsecond⟩ := Except.bind_ok hsecond
  obtain ⟨more, -, hsecond⟩ := Except.bind_ok hsecond
  cases hsecond
  rw [List.map_append, List.map_cons]
  exact List.mem_append_right _ List.mem_cons_self

/-- A task with the parameters that now stand in its stage. -/
def Task.renewed (normal : Params) (task : Task) : Task :=
  { task with request := (normal.get? task.stage).getD .null }

/-- A call with parameters in the same stages has the same tasks, but for their parameters, or fails
with the same error. -/
theorem tasks_eq_renewed
    (hsame : ∀ stage ∈ stages, (normal.get? stage).isSome = (params.get? stage).isSome) :
    tasks config options entity normal stages =
      (tasks config options entity params stages).map (List.map (Task.renewed normal)) := by
  induction stages with
  | nil => rfl
  | cons stage rest ih =>
    obtain ⟨hfirst, hrest⟩ := List.forall_mem_cons.mp hsame
    rw [tasks, tasks, ih hrest]
    cases hrequest : params.get? stage with
    | none =>
      rw [hrequest, Option.isSome_none, Option.isSome_eq_false_iff,
        Option.isNone_iff_eq_none] at hfirst
      rw [hfirst]
    | some request =>
      rw [hrequest, Option.isSome_some] at hfirst
      -- the same stages are present, with other documents
      obtain ⟨request', hrequest'⟩ := Option.isSome_iff_exists.mp hfirst
      rw [hrequest']
      cases resolve stage options entity config with
      | error e => rfl
      | ok hook =>
        cases tasks config options entity params rest with
        | error e => rfl
        | ok more =>
          have hrenewed : Task.renewed normal ⟨stage, hook, request⟩ = ⟨stage, hook, request'⟩ := by
            rw [Task.renewed, hrequest', Option.getD_some]
          show Except.ok (⟨stage, hook, request'⟩ :: more.map (Task.renewed normal)) =
            .ok (Task.renewed normal ⟨stage, hook, request⟩ :: more.map (Task.renewed normal))
          rw [hrenewed]

/-- A run on normalised parameters has the same tasks, with the normal forms as requests. -/
theorem tasks_renewed (h : tasks config options entity params stages = .ok ts)
    (hsame : ∀ stage ∈ stages, (normal.get? stage).isSome = (params.get? stage).isSome) :
    tasks config options entity normal stages = .ok (ts.map (Task.renewed normal)) := by
  rw [tasks_eq_renewed hsame, h]
  rfl

end Tasks

/-- The first document is applied, and then the others to what it leaves. -/
theorem runAll_cons {m : Type → Type} (custom : String → Handler m) (q : Query) (hook : Hook)
    (document : Json) (ready : List (Hook × Json)) :
    runAll custom q ((hook, document) :: ready) =
      hook.run custom q document >>= fun q => runAll custom q ready := List.foldlM_cons ..

/-! ### Tasks that succeed -/

variable {custom : String → Handler Id} {context : Context Id} {q r : Query} {params : Params}
  {ts : List Task}

/-- Against the query, the parameters of the task normalise to the document. -/
def Formats (custom : String → Handler Id) (context : Context Id) (q : Query) (task : Task)
    (document : Json) : Prop :=
  task.hook.format custom q task.request context = pure document

/-- One task after the other is normalised to the document at its place and then applied, which
leads from the first query to the last. -/
inductive Threads (custom : String → Handler Id) (context : Context Id) :
    Query → List Task → List Json → Query → Prop
  | nil (q : Query) : Threads custom context q [] [] q
  | cons {q q' r : Query} {task : Task} {rest : List Task} {document : Json}
    {documents : List Json} (hformat : Formats custom context q task document)
    (hrun : task.hook.run custom q document = .ok q')
    (hrest : Threads custom context q' rest documents r) :
    Threads custom context q (task :: rest) (document :: documents) r

/-- The documents by stage. -/
def byStage (ts : List Task) (documents : List Json) : List (String × Json) :=
  (ts.map Task.stage).zip documents

/-- The documents, each with the hook that applies it. -/
def byHook (ts : List Task) (documents : List Json) : List (Hook × Json) :=
  (ts.map Task.hook).zip documents

/-- A threaded run has one document for each task. -/
theorem Threads.length_eq {documents : List Json} (h : Threads custom context q ts documents r) :
    ts.length = documents.length := by
  induction h with
  | nil => rfl
  | cons _ _ _ ih => rw [List.length_cons, List.length_cons, ih]

/-- Tasks and then others lead over the query that the first ones leave. -/
theorem Threads.append {first second : List Task} {documents : List Json}
    (h : Threads custom context q (first ++ second) documents r) :
    ∃ s earlier later, Threads custom context q first earlier s ∧
      Threads custom context s second later r ∧ documents = earlier ++ later := by
  induction first generalizing q documents with
  | nil => exact ⟨q, [], documents, .nil q, h, rfl⟩
  | cons task rest ih =>
    rw [List.cons_append] at h
    cases h with
    | cons hformat hrun hrest =>
      obtain ⟨s, earlier, later, hearlier, hlater, rfl⟩ := ih hrest
      exact ⟨s, _ :: earlier, later, .cons hformat hrun hearlier, hlater, rfl⟩

/-- The documents are stored under the stages of the tasks. -/
theorem map_fst_byStage {documents : List Json} (h : ts.length = documents.length) :
    (byStage ts documents).map Prod.fst = ts.map Task.stage := by
  rw [byStage, List.map_fst_zip]
  simp [h]

/-- Normalising all tasks gives the documents of each, and puts them in place. -/
theorem formatAll_eq_pure {outcome : List (Hook × Json) × Params} :
    formatAll custom context q params ts = pure outcome ↔
      ∃ documents, List.Forall₂ (Formats custom context q) ts documents ∧
        outcome = (byHook ts documents, params.setAll (byStage ts documents)) := by
  induction ts generalizing params outcome with
  | nil =>
    rw [formatAll]
    constructor
    · intro h
      exact ⟨[], .nil, (pure_inj h).symm⟩
    · rintro ⟨documents, hdocuments, rfl⟩
      cases hdocuments
      rfl
  | cons task rest ih =>
    rw [formatAll, bind_eq_pure]
    constructor
    · rintro ⟨document, hdocument, h⟩
      -- the first document, then the induction for the others
      obtain ⟨more, hmore, h⟩ := bind_eq_pure.mp h
      obtain ⟨documents, hdocuments, rfl⟩ := ih.mp hmore
      exact ⟨document :: documents, .cons hdocument hdocuments, (pure_inj h).symm⟩
    · rintro ⟨documents, hdocuments, rfl⟩
      cases hdocuments with
      | cons hdocument hrest =>
        exact ⟨_, hdocument, bind_eq_pure.mpr ⟨_, ih.mpr ⟨_, hrest, rfl⟩, rfl⟩⟩

/-- A run in two passes normalises all tasks against the incoming query and then applies them. -/
theorem runTwoPass_eq_pure {outcome : Query × Params} :
    runTwoPass custom context q params ts = pure outcome ↔
      ∃ documents, List.Forall₂ (Formats custom context q) ts documents ∧
        runAll custom q (byHook ts documents) = .ok outcome.1 ∧
        outcome.2 = params.setAll (byStage ts documents) := by
  rw [runTwoPass, bind_eq_pure]
  constructor
  · rintro ⟨ready, hready, h⟩
    obtain ⟨documents, hdocuments, rfl⟩ := formatAll_eq_pure.mp hready
    obtain ⟨r, hr, h⟩ := bind_eq_pure.mp h
    rw [← pure_inj h]
    exact ⟨documents, hdocuments, liftOutcome_eq_pure.mp hr, rfl⟩
  · rintro ⟨documents, hdocuments, hrun, hparams⟩
    refine ⟨_, formatAll_eq_pure.mpr ⟨documents, hdocuments, rfl⟩, ?_⟩
    refine bind_eq_pure.mpr ⟨outcome.1, liftOutcome_eq_pure.mpr hrun, ?_⟩
    rw [← hparams]

/-- A threaded run normalises and applies one task after the other. -/
theorem runThreaded_eq_pure {outcome : Query × Params} :
    runThreaded custom context q params ts = pure outcome ↔
      ∃ documents, Threads custom context q ts documents outcome.1 ∧
        outcome.2 = params.setAll (byStage ts documents) := by
  induction ts generalizing q params with
  | nil =>
    rw [runThreaded]
    constructor
    · intro h
      rw [← pure_inj h]
      exact ⟨[], .nil q, rfl⟩
    · rintro ⟨documents, hdocuments, hparams⟩
      obtain ⟨r, final⟩ := outcome
      cases hdocuments
      cases hparams
      rfl
  | cons task rest ih =>
    rw [runThreaded, bind_eq_pure]
    constructor
    · rintro ⟨document, hdocument, h⟩
      -- the rest goes on with the query that this task has given
      obtain ⟨q', hrun, h⟩ := bind_eq_pure.mp h
      obtain ⟨documents, hdocuments, hparams⟩ := ih.mp h
      exact ⟨document :: documents, .cons hdocument (liftOutcome_eq_pure.mp hrun) hdocuments,
        hparams⟩
    · rintro ⟨documents, hdocuments, hparams⟩
      cases hdocuments with
      | cons hdocument hrun hrest =>
        refine ⟨_, hdocument, bind_eq_pure.mpr ⟨_, liftOutcome_eq_pure.mpr hrun, ?_⟩⟩
        exact ih.mpr ⟨_, hrest, hparams⟩

/-- A run looks up the tasks and then runs them in the mode of its configuration. -/
theorem run_eq_pure {config : Config} {options : Options Id} {outcome : Query × Params} :
    run custom config options q params = pure outcome ↔
      ∃ ts, tasks config options q.entity params (stagesOf config options) = .ok ts ∧
        (match config.mode with
          | .twoPass => runTwoPass custom (contextOf config options) q params ts
          | .threaded => runThreaded custom (contextOf config options) q params ts) =
        pure outcome := by
  rw [run, bind_eq_pure]
  rfl

end Pipeline

end Listing
