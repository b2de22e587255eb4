import Listing.Proofs.Pipeline.Progress

namespace Listing

/-!
# Runs in any monad

What a run of the pipeline consists of when it succeeds, whatever its repository and its hooks do on
the way.  Where effects are allowed, it cannot be said which document the parameters of a task
normalise to; but what is known of all documents that a hook makes is known of those of the run.

* `FormatMode.against` — the query that a task is normalised against;
* `Pipeline.Advances` — tasks are normalised and applied one after the other, in either mode;
* `Pipeline.Advances.exists_of_mem` — a property of queries that all hooks keep holds wherever a
  task is normalised;
* `Pipeline.yields_advances` — a run consists of the tasks of its call.
-/

/-- The query that a task is normalised against: the incoming one, or the one that the tasks before
it leave. -/
def FormatMode.against : FormatMode → Query → Query → Query
  | twoPass, incoming, _ => incoming
  | threaded, _, current => current

namespace Pipeline

variable {m : Type → Type} {custom : String → Handler m} {Made : Query → Task → Json → Prop}
  {mode : FormatMode} {q₀ q r : Query} {ts : List Task} {documents : List Json}

/-! ### Tasks of a run -/

/-- One task after the other has been made into the document at its place, against the query of the
mode, and the documents lead from the second query to the last. -/
inductive Advances (custom : String → Handler m) (Made : Query → Task → Json → Prop)
    (mode : FormatMode) (q₀ : Query) : Query → List Task → List Json → Query → Prop
  | nil (q : Query) : Advances custom Made mode q₀ q [] [] q
  | cons {q q' r : Query} {task : Task} {rest : List Task} {document : Json}
    {documents : List Json} (hmade : Made (mode.against q₀ q) task document)
    (hrun : task.hook.run custom q document = .ok q')
    (hrest : Advances custom Made mode q₀ q' rest documents r) :
    Advances custom Made mode q₀ q (task :: rest) (document :: documents) r

/-- All documents made against the incoming query and then applied lead to the last query. -/
theorem advances_of_runAll (hmade : List.Forall₂ (Made q₀) ts documents)
    (hrun : runAll custom q (byHook ts documents) = .ok r) :
    Advances custom Made .twoPass q₀ q ts documents r := by
  induction hmade generalizing q with
  | nil =>
    cases hrun
    exact .nil r
  | cons hfirst _ ih =>
    obtain ⟨q', hstep, hrest⟩ := Except.bind_ok ((runAll_cons ..).symm.trans hrun)
    exact .cons hfirst hstep (ih hrest)

namespace Advances

/-- There is one document for each task. -/
theorem length_eq (h : Advances custom Made mode q₀ q ts documents r) :
    ts.length = documents.length := by
  induction h with
  | nil => rfl
  | cons _ _ _ ih => rw [List.length_cons, List.length_cons, ih]

/-- Each task has been made into a document and applied; and if its hooks keep a property of the
query of the mode, the document was made against a query of the property. -/
theorem exists_of_mem {P : Query → Prop} (h : Advances custom Made mode q₀ q ts documents r)
    (hq : P (mode.against q₀ q))
    (hkeep : ∀ task ∈ ts, ∀ q document r, task.hook.run custom q document = .ok r →
      P (mode.against q₀ q) → P (mode.against q₀ r)) {task : Task} (htask : task ∈ ts) :
    ∃ against before document after, P against ∧ Made against task document ∧
      task.hook.run custom before document = .ok after := by
  induction h with
  | nil => cases htask
  | cons hmade hrun _ ih =>
    obtain ⟨hfirst, hrest⟩ := List.forall_mem_cons.mp hkeep
    rcases List.mem_cons.mp htask with rfl | hlater
    -- the hook of the first task hands the property on to the query that the rest starts from
    · exact ⟨_, _, _, _, hq, hmade, hrun⟩
    · exact ih (hfirst _ _ _ hrun hq) hrest hlater

end Advances

/-! ### Runs -/

variable [Monad m] [LawfulMonad m] {context : Context m}

/-- Normalising all tasks makes the documents of each, and puts them in place. -/
theorem yields_formatAll_made (params : Params)
    (h : ∀ task ∈ ts, Yields (Made q task) (task.hook.format custom q task.request context)) :
    Yields (fun outcome => ∃ documents, List.Forall₂ (Made q) ts documents ∧
        outcome = (byHook ts documents, params.setAll (byStage ts documents)))
      (formatAll custom context q params ts) := by
  induction ts generalizing params with
  | nil => exact yields_pure ⟨[], .nil, rfl⟩
  | cons task rest ih =>
    obtain ⟨hfirst, hrest⟩ := List.forall_mem_cons.mp h
    refine yields_bind hfirst ?_
    intro document hdocument
    refine yields_bind (ih (params.set task.stage document) hrest) ?_
    rintro _ ⟨documents, hdocuments, rfl⟩
    exact yields_pure ⟨document :: documents, .cons hdocument hdocuments, rfl⟩

/-- A run in two passes advances, if each document is made as it should be at the first query. -/
theorem yields_runTwoPass_advances (params : Params)
    (h : ∀ task ∈ ts, Yields (Made q task) (task.hook.format custom q task.request context)) :
    Yields (fun outcome => ∃ documents, Advances custom Made .twoPass q q ts documents outcome.1 ∧
        outcome.2 = params.setAll (byStage ts documents))
      (runTwoPass custom context q params ts) := by
  refine yields_bind (yields_formatAll_made params h) ?_
  rintro _ ⟨documents, hdocuments, rfl⟩
  refine yields_bind (P := fun r => runAll custom q (byHook ts documents) = .ok r)
    (yields_liftOutcome fun r hr => hr) ?_
  intro r hr
  exact yields_pure ⟨documents, advances_of_runAll hdocuments hr, rfl⟩

/-- So does a threaded run, if it is made so at every query. -/
theorem yields_runThreaded_advances (q₀ : Query) (params : Params)
    (h : ∀ q, ∀ task ∈ ts, Yields (Made q task) (task.hook.format custom q task.request context)) :
    Yields (fun outcome => ∃ documents, Advances custom Made .threaded q₀ q ts documents outcome.1 ∧
        outcome.2 = params.setAll (byStage ts documents))
      (runThreaded custom context q params ts) := by
  induction ts generalizing q params with
  | nil => exact yields_pure ⟨[], .nil q, rfl⟩
  | cons task rest ih =>
    refine yields_bind (h q task List.mem_cons_self) ?_
    intro document hdocument
    refine yields_bind (P := fun r => task.hook.run custom q document = .ok r)
      (yields_liftOutcome fun r hr => hr) ?_
    intro q' hrun
    -- the rest starts from what the hook leaves, so the induction is for every query
    refine yields_mono ?_ (ih (q := q') (params.set task.stage document)
      fun q later hlater => h q later (List.mem_cons_of_mem _ hlater))
    rintro outcome ⟨documents, hdocuments, hparams⟩
    exact ⟨document :: documents, .cons hdocument hrun hdocuments, hparams⟩

variable {config : Config} {options : Options m} {params : Params}

/-- A run makes the documents of the tasks of its call one after the other, and puts them in
place. -/
theorem yields_advances
    (h : ∀ q task, Yields (Made q task)
      (task.hook.format custom q task.request (contextOf config options))) :
    Yields (fun outcome => ∃ ts documents,
        tasks config options q.entity params (stagesOf config options) = .ok ts ∧
        Advances custom Made config.mode q q ts documents outcome.1 ∧
        outcome.2 = params.setAll (byStage ts documents))
      (run custom config options q params) := by
  rw [run]
  refine yields_bind (yields_liftOutcome fun ts hts => hts) ?_
  intro ts hts
  cases config.mode with
  | twoPass =>
    refine yields_mono ?_ (yields_runTwoPass_advances params fun task _ => h q task)
    rintro outcome ⟨documents, hdocuments⟩
    exact ⟨ts, documents, hts, hdocuments⟩
  | threaded =>
    refine yields_mono ?_ (yields_runThreaded_advances q params fun q task _ => h q task)
    rintro outcome ⟨documents, hdocuments⟩
    exact ⟨ts, documents, hts, hdocuments⟩

end Pipeline

end Listing
