import Listing.Proofs.Pipeline.Modes

namespace Listing

/-!
# The place of the page among the stages

Where all parameters are normalised before any are applied, a page by offset can stand anywhere
among searches and orderings.  Normalising looks at the incoming query only, parameters are put in
place stage by stage, and applying a page commutes with applying what leaves the window alone.  So
wherever the page is listed, the call is the one that lists it first.

* `Params.setAll_front` — a stage that is there can as well be set first;
* `Pipeline.tasks_front` — the tasks of stages with one stage among them;
* `Pipeline.Applied`, `Pipeline.runTwoPass_eq_pure_done` — a run in two passes, by the tasks and
  their documents;
* `Pipeline.runAll_front`, `Pipeline.runTwoPass_front`, `Pipeline.run_front` — a page can as well be
  applied first, done first and listed first;
* `Pipeline.Restaged` — calls that differ in the stages they list at most;
* `Pipeline.page_position` — calls that list the page at different places give the same.
-/

namespace Params

variable {p : Params} {stage : String} {value : Json} {first second : List (String × Json)}

/-- A stage that is there, and that is not among the first ones, can as well be set before them. -/
theorem setAll_front (hpresent : stage ∈ Dict.keys p.entries) (h : stage ∉ first.map Prod.fst) :
    p.setAll (first ++ (stage, value) :: second) =
      p.setAll ((stage, value) :: (first ++ second)) := by
  induction first generalizing p with
  | nil => rfl
  | cons entry rest ih =>
    rw [List.map_cons, List.mem_cons, not_or] at h
    -- to be moved past another entry, the stage must have its place already
    have hstill : stage ∈ Dict.keys (p.set entry.1 entry.2).entries := by
      rw [set, Dict.keys_insert]
      split
      · exact hpresent
      · exact List.mem_append_left _ hpresent
    calc (p.set entry.1 entry.2).setAll (rest ++ (stage, value) :: second)
      _ = ((p.set entry.1 entry.2).set stage value).setAll (rest ++ second) := ih hstill h.2
      _ = ((p.set stage value).set entry.1 entry.2).setAll (rest ++ second) := by
        rw [set_comm h.1 hpresent]

end Params

namespace Pipeline

/-! ### Tasks -/

section Tasks

variable {m : Type → Type} {config : Config} {options : Options m} {entity : Entity}
  {params : Params} {ts : List Task} {page : String} {request : Json} {before after : List String}

/-- The tasks of some stages and then of others are those of both, one after the other. -/
theorem tasks_append_iff {stages others : List String} :
    tasks config options entity params (stages ++ others) = .ok ts ↔
      ∃ first second, tasks config options entity params stages = .ok first ∧
        tasks config options entity params others = .ok second ∧ ts = first ++ second := by
  refine ⟨tasks_append, ?_⟩
  rintro ⟨first, second, hfirst, hsecond, rfl⟩
  induction stages generalizing first with
  | nil =>
    cases hfirst
    exact hsecond
  | cons stage rest ih =>
    rw [List.cons_append, tasks]
    rw [tasks] at hfirst
    split at hfirst
    · exact ih first hfirst
    · obtain ⟨hook, hhook, hfirst⟩ := Except.bind_ok hfirst
      obtain ⟨more, hmore, hfirst⟩ := Except.bind_ok hfirst
      cases hfirst
      rw [hhook, ih more hmore]
      rfl

/-- The tasks of stages with one among them that has parameters. -/
theorem tasks_front (hrequest : params.get? page = some request) :
    tasks config options entity params (before ++ page :: after) = .ok ts ↔
      ∃ hook first second, resolve page options entity config = .ok hook ∧
        tasks config options entity params before = .ok first ∧
        tasks config options entity params after = .ok second ∧
        ts = first ++ ⟨page, hook, request⟩ :: second := by
  rw [tasks_append_iff]
  constructor
  · rintro ⟨first, second, hfirst, hsecond, rfl⟩
    -- the page is present, so it has a task
    rw [tasks, hrequest] at hsecond
    obtain ⟨hook, hhook, hsecond⟩ := Except.bind_ok hsecond
    obtain ⟨more, hmore, hsecond⟩ := Except.bind_ok hsecond
    cases hsecond
    exact ⟨hook, first, more, hhook, hfirst, hmore, rfl⟩
  · rintro ⟨hook, first, second, hhook, hfirst, hsecond, rfl⟩
    refine ⟨first, ⟨page, hook, request⟩ :: second, hfirst, ?_, rfl⟩
    rw [tasks, hrequest, hhook, hsecond]
    rfl

end Tasks

/-! ### Runs -/

variable {custom : String → Handler Id} {config config' : Config} {options options' : Options Id}
  {context : Context Id} {q : Query} {params : Params} {page : String} {request : Json}

/-- A task with the document that its parameters normalise to. -/
abbrev Done : Type := Task × Json

/-- Applied in order, the documents lead from the query to that of the outcome, and put in place,
from the parameters to those of the outcome. -/
def Applied (custom : String → Handler Id) (q : Query) (params : Params) (done : List Done)
    (outcome : Query × Params) : Prop :=
  runAll custom q (done.map fun entry => (entry.1.hook, entry.2)) = .ok outcome.1 ∧
    outcome.2 = params.setAll (done.map fun entry => (entry.1.stage, entry.2))

/-- A run in two passes goes by the tasks, each with its document. -/
theorem runTwoPass_eq_pure_done {ts : List Task} {outcome : Query × Params} :
    runTwoPass custom context q params ts = pure outcome ↔
      ∃ done : List Done, done.map Prod.fst = ts ∧
        (∀ entry ∈ done, Formats custom context q entry.1 entry.2) ∧
        Applied custom q params done outcome := by
  rw [runTwoPass_eq_pure]
  constructor
  · rintro ⟨documents, hformats, hrun, hparams⟩
    -- each task with its document, instead of two lists of one length
    obtain ⟨hlength, heach⟩ := List.forall₂_iff_zip.mp hformats
    refine ⟨ts.zip documents, List.map_fst_zip (Nat.le_of_eq hlength),
      fun entry hentry => heach hentry, ?_, ?_⟩
    · rwa [byHook, List.zip_map_left] at hrun
    · rwa [byStage, List.zip_map_left] at hparams
  · rintro ⟨done, rfl, hformats, hrun, hparams⟩
    refine ⟨done.map Prod.snd, ?_, ?_, ?_⟩
    · rw [List.forall₂_map_left_iff, List.forall₂_map_right_iff, List.forall₂_same]
      exact hformats
    · rwa [byHook, List.map_map, List.zip_map']
    · rwa [byStage, List.map_map, List.zip_map']

/-- The hook is one of this library, and leaves the window alone. -/
def LeavesWindow (hook : Hook) : Prop := ∃ b, hook = .builtin b ∧ b.leavesWindow = true

/-- A page can as well be applied before what leaves the window alone. -/
theorem runAll_front {first second : List (Hook × Json)} (document : Json)
    (h : ∀ entry ∈ first, LeavesWindow entry.1) :
    Agree Eq (runAll custom q (first ++ (.builtin .offsetPage, document) :: second))
      (runAll custom q ((.builtin .offsetPage, document) :: (first ++ second))) := by
  induction first generalizing q with
  | nil => exact .of_eq rfl
  | cons entry rest ih =>
    obtain ⟨hook, ready⟩ := entry
    obtain ⟨⟨b, hb, hleaves⟩, hrest⟩ := List.forall_mem_cons.mp h
    cases hb
    rw [List.cons_append, runAll_cons, runAll_cons]
    -- the page goes to the front of the later ones, and then before this one
    have hlater : Agree Eq
        (b.run q ready >>= fun r =>
          runAll custom r (rest ++ (.builtin .offsetPage, document) :: second))
        ((b.run q ready >>= fun r => Builtin.offsetPage.run r document) >>= fun r =>
          runAll custom r (rest ++ second)) := by
      rw [bind_assoc]
      refine (Agree.of_eq rfl).bind ?_
      rintro r _ rfl
      exact (ih hrest).eq_trans (.of_eq (runAll_cons ..))
    have hswap : Agree Eq
        ((b.run q ready >>= fun r => Builtin.offsetPage.run r document) >>= fun r =>
          runAll custom r (rest ++ second))
        ((Builtin.offsetPage.run q document >>= fun r => b.run r ready) >>= fun r =>
          runAll custom r (rest ++ second)) := by
      refine (Builtin.run_offsetPage_comm hleaves q document ready).eq_symm.bind ?_
      rintro r _ rfl
      exact .of_eq rfl
    refine (hlater.eq_trans hswap).eq_trans (.of_eq ?_)
    rw [bind_assoc]
    rfl

/-- A page that is done can as well be done before what leaves the window alone. -/
theorem applied_front {earlier later : List Done} {task : Task} {document : Json}
    {outcome : Query × Params} (hpresent : task.stage ∈ Dict.keys params.entries)
    (htask : task.hook = .builtin .offsetPage)
    (h : ∀ entry ∈ earlier, entry.1.stage ≠ task.stage ∧ LeavesWindow entry.1.hook) :
    Applied custom q params (earlier ++ (task, document) :: later) outcome ↔
      Applied custom q params ((task, document) :: (earlier ++ later)) outcome := by
  -- none of the earlier tasks has to do with the window or the stage of the page
  have hhooks : ∀ ready ∈ earlier.map fun entry => (entry.1.hook, entry.2),
      LeavesWindow ready.1 := by
    intro ready hready
    obtain ⟨entry, hentry, rfl⟩ := List.mem_map.mp hready
    exact (h entry hentry).2
  have hstages : task.stage ∉
      (earlier.map fun entry => (entry.1.stage, entry.2)).map Prod.fst := by
    intro hmem
    obtain ⟨ready, hready, hstage⟩ := List.mem_map.mp hmem
    obtain ⟨entry, hentry, rfl⟩ := List.mem_map.mp hready
    exact (h entry hentry).1 hstage
  simp only [Applied, List.map_append, List.map_cons, htask]
  rw [(runAll_front document hhooks).eq_ok_iff, Params.setAll_front hpresent hstages]

/-- A run in two passes gives the same when its page is the first task. -/
theorem runTwoPass_front {first second : List Task} {task : Task} {outcome : Query × Params}
    (hpresent : task.stage ∈ Dict.keys params.entries)
    (htask : task.hook = .builtin .offsetPage)
    (h : ∀ other ∈ first, other.stage ≠ task.stage ∧ LeavesWindow other.hook) :
    runTwoPass custom context q params (first ++ task :: second) = pure outcome ↔
      runTwoPass custom context q params (task :: (first ++ second)) = pure outcome := by
  have hdone {earlier : List Done} (hearlier : earlier.map Prod.fst = first) :
      ∀ entry ∈ earlier, entry.1.stage ≠ task.stage ∧ LeavesWindow entry.1.hook :=
    fun entry hentry => h entry.1 (hearlier ▸ List.mem_map_of_mem hentry)
  rw [runTwoPass_eq_pure_done, runTwoPass_eq_pure_done]
  constructor
  · rintro ⟨done, htasks, hformats, happlied⟩
    obtain ⟨earlier, others, rfl, hearlier, hothers⟩ := List.map_eq_append_iff.mp htasks
    obtain ⟨⟨_, document⟩, later, rfl, rfl, hlater⟩ := List.map_eq_cons_iff.mp hothers
    -- each document comes of the incoming query, so it is the same whatever is done before
    refine ⟨(_, document) :: (earlier ++ later), ?_, ?_,
      (applied_front hpresent htask (hdone hearlier)).mp happlied⟩
    · rw [List.map_cons, List.map_append, hearlier, hlater]
    · intro entry hentry
      exact hformats entry (List.perm_middle.mem_iff.mpr hentry)
  · rintro ⟨done, htasks, hformats, happlied⟩
    obtain ⟨⟨_, document⟩, others, rfl, rfl, hothers⟩ := List.map_eq_cons_iff.mp htasks
    obtain ⟨earlier, later, rfl, hearlier, hlater⟩ := List.map_eq_append_iff.mp hothers
    refine ⟨earlier ++ (_, document) :: later, ?_, ?_,
      (applied_front hpresent htask (hdone hearlier)).mpr happlied⟩
    · rw [List.map_append, List.map_cons, hearlier, hlater]
    · intro entry hentry
      exact hformats entry (List.perm_middle.mem_iff.mp hentry)

/-! ### Calls -/

/-- The page can stand anywhere among stages that leave the window alone: the call looks it up and
handles it as if it were listed first. -/
theorem run_front {before after : List String} (hmode : config.mode = .twoPass)
    (hstages : stagesOf config options = before ++ page :: after) (honce : page ∉ before)
    (hpage : ∀ hook, resolve page options q.entity config = .ok hook →
      hook = .builtin .offsetPage)
    (hothers : ∀ stage ∈ before, params.contains stage = true → ∀ hook,
      resolve stage options q.entity config = .ok hook → LeavesWindow hook)
    (outcome : Query × Params) :
    run custom config options q params = pure outcome ↔
      ∃ ts, tasks config options q.entity params (page :: (before ++ after)) = .ok ts ∧
        runTwoPass custom (contextOf config options) q params ts = pure outcome := by
  rw [run_eq_pure, hstages, hmode]
  show (∃ ts, _ ∧ runTwoPass custom (contextOf config options) q params ts = pure outcome) ↔ _
  cases hrequest : params.get? page with
  | none =>
    -- a page that is not asked for has no task, wherever it is listed
    have hnone : params.contains page = false := by
      rw [Params.contains, hrequest, Option.isSome_none]
    rw [← tasks_filter, ← tasks_filter config options q.entity params (page :: _)]
    simp only [List.filter_append, List.filter_cons, hnone]
    rfl
  | some request =>
    have hpresent : page ∈ Dict.keys params.entries := Params.mem_keys_of_get? hrequest
    have hfront {hook : Hook} {first second : List Task}
        (hhook : resolve page options q.entity config = .ok hook)
        (hfirst : tasks config options q.entity params before = .ok first) :
        runTwoPass custom (contextOf config options) q params
            (first ++ ⟨page, hook, request⟩ :: second) = pure outcome ↔
          runTwoPass custom (contextOf config options) q params
            (⟨page, hook, request⟩ :: (first ++ second)) = pure outcome := by
      refine runTwoPass_front hpresent (hpage hook hhook) ?_
      intro other hother
      obtain ⟨hstage, hget, hresolve⟩ := (mem_tasks_iff hfirst).mp hother
      have hne : other.stage ≠ page := by
        rintro rfl
        exact honce hstage
      refine ⟨hne, hothers other.stage hstage ?_ other.hook hresolve⟩
      rw [Params.contains, hget, Option.isSome_some]
    constructor
    · rintro ⟨ts, htasks, hrun⟩
      obtain ⟨hook, first, second, hhook, hfirst, hsecond, rfl⟩ :=
        (tasks_front hrequest).mp htasks
      refine ⟨_, ?_, (hfront hhook hfirst).mp hrun⟩
      rw [tasks, hrequest, hhook, tasks_append_iff.mpr ⟨first, second, hfirst, hsecond, rfl⟩]
      rfl
    · rintro ⟨ts, htasks, hrun⟩
      rw [tasks, hrequest] at htasks
      obtain ⟨hook, hhook, htasks⟩ := Except.bind_ok htasks
      obtain ⟨more, hmore, htasks⟩ := Except.bind_ok htasks
      cases htasks
      obtain ⟨first, second, hfirst, hsecond, rfl⟩ := tasks_append hmore
      exact ⟨_, (tasks_front hrequest).mpr ⟨hook, first, second, hhook, hfirst, hsecond, rfl⟩,
        (hfront hhook hfirst).mpr hrun⟩

/-- The calls differ in the stages they list at most. -/
structure Restaged (config config' : Config) (options options' : Options Id) : Prop where
  config : config' = config.withStages config'.stages
  options : options' = { options with stages := options'.stages }

/-- The hooks of the stages are the same. -/
theorem Restaged.resolve_eq (h : Restaged config config' options options') (stage : String)
    (entity : Entity) : resolve stage options' entity config' =
      resolve stage options entity config := by
  rw [h.config, h.options]
  rfl

/-- So is the context of the call. -/
theorem Restaged.contextOf_eq (h : Restaged config config' options options') :
    contextOf config' options' = contextOf config options := by
  rw [h.config, h.options]
  rfl

/-- **The place of the page is free.** Where all parameters are normalised before any are applied,
the place of the page among stages that leave the window alone (`LeavesWindow`) does not matter:
applying `Builtin.offsetPage` commutes with applying a search or an ordering, and moved to another
place in the list (`Restaged`) it changes neither whether `Pipeline.run` succeeds nor what it then
gives. -/
theorem page_position (custom : String → Handler Id) (q : Query) (params : Params)
    {before after before' after' : List String} (hmode : config.mode = .twoPass)
    (hcalls : Restaged config config' options options')
    (hstages : stagesOf config options = before ++ page :: after)
    (hmoved : stagesOf config' options' = before' ++ page :: after')
    (hsame : before' ++ after' = before ++ after) (honce : page ∉ before ++ after)
    (hpage : ∀ hook, resolve page options q.entity config = .ok hook →
      hook = .builtin .offsetPage)
    (hothers : ∀ stage ∈ before ++ after, params.contains stage = true → ∀ hook,
      resolve stage options q.entity config = .ok hook → LeavesWindow hook) :
    (∀ b : Builtin, b.leavesWindow = true → ∀ (r : Query) (document ready : Json),
      Agree Eq (Builtin.offsetPage.run r document >>= fun s => b.run s ready)
        (b.run r ready >>= fun s => Builtin.offsetPage.run s document)) ∧
    ∀ outcome, run custom config options q params = pure outcome ↔
      run custom config' options' q params = pure outcome := by
  refine ⟨fun b hb r document ready => Builtin.run_offsetPage_comm hb r document ready, ?_⟩
  intro outcome
  have hmode' : config'.mode = .twoPass := by
    rw [hcalls.config]
    exact hmode
  have hfirst {stage : String} (hstage : stage ∈ before) : stage ∈ before ++ after :=
    List.mem_append_left after hstage
  have hfirst' {stage : String} (hstage : stage ∈ before') : stage ∈ before ++ after :=
    hsame ▸ List.mem_append_left after' hstage
  -- both calls are the one that handles the page first
  rw [run_front hmode hstages (honce ∘ hfirst) hpage
    fun stage hstage => hothers stage (hfirst hstage)]
  rw [run_front hmode' hmoved (honce ∘ hfirst'), hsame, hcalls.contextOf_eq,
    tasks_congr fun stage _ => hcalls.resolve_eq stage q.entity]
  · intro hook hhook
    exact hpage hook (hcalls.resolve_eq page q.entity ▸ hhook)
  · intro stage hstage hcontains hook hhook
    exact hothers stage (hfirst' hstage) hcontains hook
      (hcalls.resolve_eq stage q.entity ▸ hhook)

/-- A call that lists the page last, of a repository that counts fewer rows once there is a second
condition. -/
def pageLast : Options Id :=
  ⟨some ⟨fun q => pure (if q.conjuncts.length < 2 then 8 else 3), fun _ => pure []⟩, [],
    some ["search", "sort", "paginate"], none⟩

/-- A call that lists the page first gives the same window and the same totals: the rows are counted
without the search in both. -/
theorem page_position_pageLast :
    ∃ q params,
      run Handler.unfinished .standard pageLast tenantProducts beyondLastPage =
        pure (q, params) ∧
      run Handler.unfinished .standard (pageLast.withStages ["paginate", "search", "sort"])
        tenantProducts beyondLastPage = pure (q, params) ∧
      params.page? = some ⟨2, 5, 8, 2⟩ ∧
      q.selectSql = "SELECT p0.* FROM products AS p0 " ++
        "WHERE p0.tenant = $1 AND p0.name = $2 ORDER BY p0.price DESC LIMIT 5 OFFSET 5" := by
  have hothers : ∀ stage ∈ ["search", "sort"] ++ [], beyondLastPage.contains stage = true →
      ∀ hook, resolve stage pageLast tenantProducts.entity .standard = .ok hook →
      LeavesWindow hook := by
    intro stage hstage _ hook hhook
    simp only [List.append_nil, List.mem_cons, List.not_mem_nil, or_false] at hstage
    rcases hstage with rfl | rfl <;> cases hhook <;> exact ⟨_, rfl, rfl⟩
  have hpage : ∀ hook, resolve "paginate" pageLast tenantProducts.entity .standard = .ok hook →
      hook = .builtin .offsetPage := by
    intro hook hhook
    cases hhook
    rfl
  have hcalls : Restaged .standard .standard pageLast
      (pageLast.withStages ["paginate", "search", "sort"]) := ⟨rfl, rfl⟩
  have hstages : stagesOf .standard pageLast = ["search", "sort"] ++ "paginate" :: [] := rfl
  have hmoved : stagesOf .standard (pageLast.withStages ["paginate", "search", "sort"]) =
      [] ++ "paginate" :: ["search", "sort"] := rfl
  -- the page goes from the end of the list to its start
  obtain ⟨-, hposition⟩ := page_position Handler.unfinished tenantProducts beyondLastPage rfl
    hcalls hstages hmoved rfl (by decide) hpage hothers
  refine ⟨_, _, rfl, (hposition _).mp rfl, ?_, ?_⟩
  · decide +kernel
  · decide +kernel

end Pipeline

end Listing
