import Listing.Proofs.Pipeline.Narrowing
import Listing.Proofs.Pipeline.Progress
import Listing.Proofs.Stage.Normal

namespace Listing.Pipeline

/-!
# Normalised requests

A run on the parameters that a run has normalised gives the same query and leaves these parameters
as they are.  A stage that is listed twice starts from the same parameters both times, and what is
in place at the end is the document of its last turn.  That is the document of each of its turns,
but for a page by offset, whose count may have seen other conditions in between: then the earlier
turns give another window for a while, until the last turn sets it.

* `Pipeline.Plain` — tasks that can be run again;
* `Pipeline.Settled`, `Pipeline.Recounted` — how the document of a turn relates to what is in place;
* `Pipeline.Trails` — the second run may be behind in its window, as long as a page is to come;
* `Pipeline.threads_again`, `Pipeline.formats_again` — the tasks of a run, run again in either mode;
* `Pipeline.run_again` — normalised parameters are a fixed point of the pipeline;
* `Pipeline.windowed_count_moves_page` — but not if counts look at windows.
-/

variable {custom : String → Handler Id} {config : Config} {options : Options Id}
  {context : Context Id} {q q₂ r : Query} {params normal : Params} {ts rest : List Task}
  {task : Task} {document : Json} {documents : List Json}

/-! ### Tasks that can be run again -/

/-- The repository, if there is one, keeps to its contract that a count ignores paging. -/
def IgnoresPaging (repository : Option (Repository Id)) : Prop :=
  ∀ known, repository = some known → ∀ q r : Query, q.SameRows r → known.count r = known.count q

/-- Hooks of this library handle the tasks, whose parameters refer to no scope of searches or
orderings, and a stage that is listed twice gives the same task both times. -/
structure Plain (ts : List Task) : Prop where
  builtin : ∀ task ∈ ts, ∃ b, task.hook = .builtin b ∧ b.Unscoped task.request
  same : ∀ task ∈ ts, ∀ other ∈ ts, other.stage = task.stage → other = task

/-- The tasks after the first are plain too. -/
theorem Plain.tail (h : Plain (task :: rest)) : Plain rest where
  builtin := fun t ht => h.builtin t (List.mem_cons_of_mem task ht)
  same := fun t ht o ho => h.same t (List.mem_cons_of_mem task ht) o (List.mem_cons_of_mem task ho)

/-- Plain tasks have hooks of this library. -/
theorem Plain.isBuiltin (h : Plain ts) : ∀ task ∈ ts, IsBuiltin task.hook := by
  intro t ht
  obtain ⟨b, hhook, -⟩ := h.builtin t ht
  exact ⟨b, hhook⟩

/-- The document that stands in a stage is that of a task of the stage. -/
theorem exists_of_mem_byStage {R : Task → Json → Prop} {stage : String}
    (h : List.Forall₂ R ts documents) (hmem : (stage, document) ∈ byStage ts documents) :
    ∃ task ∈ ts, task.stage = stage ∧ R task document := by
  induction h with
  | nil => cases hmem
  | cons hfirst _ ih =>
    rcases List.mem_cons.mp hmem with heq | hmem
    · cases heq
      exact ⟨_, List.mem_cons_self, rfl, hfirst⟩
    · obtain ⟨t, ht, hstage, hR⟩ := ih hmem
      exact ⟨t, List.mem_cons_of_mem _ ht, hstage, hR⟩

/-- The parameters of the task were normalised to the document against a query of the entity. -/
def FormatsFor (custom : String → Handler Id) (context : Context Id) (entity : Entity)
    (task : Task) (document : Json) : Prop :=
  ∃ q : Query, q.entity = entity ∧ Formats custom context q task document

/-- No hook of this library writes null. -/
theorem FormatsFor.isNull {entity : Entity} (hhook : IsBuiltin task.hook)
    (h : FormatsFor custom context entity task document) : document.isNull = false := by
  obtain ⟨b, hhook⟩ := hhook
  obtain ⟨q, -, hformat⟩ := h
  rw [Formats, hhook] at hformat
  exact b.format_isNull hformat

/-- Each document of a threaded run was normalised against a query of the first one's entity. -/
theorem Threads.formatsFor (hts : ∀ task ∈ ts, IsBuiltin task.hook)
    (h : Threads custom context q ts documents r) :
    List.Forall₂ (FormatsFor custom context q.entity) ts documents := by
  induction h with
  | nil => exact .nil
  | @cons q q' r task rest document documents hformat hrun _ ih =>
    obtain ⟨htask, hrest⟩ := List.forall_mem_cons.mp hts
    obtain ⟨b, hhook⟩ := htask
    rw [hhook] at hrun
    have hentity : q'.entity = q.entity := Builtin.entity_run hrun
    rw [hentity] at ih
    exact .cons ⟨q, rfl, hformat⟩ (ih hrest)

/-- What is formatted at one query is formatted at a query of its entity. -/
theorem formatsFor_of_formats (h : List.Forall₂ (Formats custom context q) ts documents) :
    List.Forall₂ (FormatsFor custom context q.entity) ts documents :=
  h.imp fun _ _ hformat => ⟨q, rfl, hformat⟩

/-- What stands in a stage after normalising is never null. -/
theorem isNull_of_mem_byStage {entity : Entity} (hts : ∀ task ∈ ts, IsBuiltin task.hook)
    (h : List.Forall₂ (FormatsFor custom context entity) ts documents) :
    ∀ entry ∈ byStage ts documents, entry.2.isNull = false := by
  intro entry hentry
  obtain ⟨t, ht, -, hformat⟩ := exists_of_mem_byStage h hentry
  exact hformat.isNull (hts t ht)

/-! ### What is in place at the end -/

/-- The document of a turn is what stands in the stage. -/
def Settled (normal : Params) (task : Task) (document : Json) : Prop :=
  normal.get? task.stage = some document

/-- A page by offset stands in the stage, from a later turn of the task. -/
def Recounted (normal : Params) (task : Task) (rest : List Task) : Prop :=
  task.hook = .builtin .offsetPage ∧ task ∈ rest ∧
    ∃ page : OffsetPage, normal.get? task.stage = some page.encode

/-- The document of the first turn is what stands in the stage at the end, unless the task is a page
by offset and has another turn. -/
theorem settled_or_recounted {entity : Entity} (params : Params)
    (hplain : Plain (task :: rest))
    (h : List.Forall₂ (FormatsFor custom context entity) (task :: rest) (document :: documents)) :
    Settled (params.setAll (byStage (task :: rest) (document :: documents))) task document ∨
      Recounted (params.setAll (byStage (task :: rest) (document :: documents))) task rest := by
  obtain ⟨hfirst, hrest⟩ := List.forall₂_cons.mp h
  have hnull : document.isNull = false :=
    hfirst.isNull (hplain.isBuiltin task List.mem_cons_self)
  have hstages : (byStage rest documents).map Prod.fst = rest.map Task.stage :=
    map_fst_byStage hrest.length_eq
  have hfinal : params.setAll (byStage (task :: rest) (document :: documents)) =
      (params.set task.stage document).setAll (byStage rest documents) := rfl
  rw [Settled, Recounted, hfinal]
  -- the document in place at the end is that of the last turn of the stage
  by_cases hmem : task.stage ∈ rest.map Task.stage
  · rw [← hstages] at hmem
    obtain ⟨value, hvalue, hget⟩ := Params.get?_setAll_of_mem (p := params.set task.stage document)
      (isNull_of_mem_byStage hplain.tail.isBuiltin hrest) hmem
    obtain ⟨other, hother, hstage, q₂, hentity₂, hformat₂⟩ := exists_of_mem_byStage hrest hvalue
    have hsame : other = task :=
      hplain.same task List.mem_cons_self other (List.mem_cons_of_mem task hother) hstage
    subst hsame
    obtain ⟨b, hhook, -⟩ := hplain.builtin other List.mem_cons_self
    obtain ⟨q₁, hentity₁, hformat₁⟩ := hfirst
    rw [Formats, hhook, Hook.format] at hformat₁ hformat₂
    by_cases hb : b = .offsetPage
    · subst hb
      obtain ⟨asked, _, total, -, -, -, rfl⟩ := Builtin.offsetPage_format_iff.mp hformat₂
      exact .inr ⟨hhook, hother, _, hget⟩
    · -- only a page by offset could have another document in its other turn
      have hformats : b.format q₂ other.request context = b.format q₁ other.request context :=
        b.format_congr (hentity₂.trans hentity₁.symm) other.request fun h => absurd h hb
      rw [hformat₁, hformat₂] at hformats
      rw [hget, pure_inj hformats]
      exact .inl rfl
  · rw [← hstages] at hmem
    rw [Params.get?_setAll_of_not_mem hmem, Params.get?_set_self hnull]
    exact .inl rfl

/-! ### Running again, task by task -/

/-- A second run is where the first one was, or it is behind in its window at most, for as long as a
page by offset is to come; then counts have to ignore the window. -/
def Trails (context : Context Id) (ts : List Task) (q q₂ : Query) : Prop :=
  q₂ = q ∨ (IgnoresPaging context.repository ∧ q.SameRows q₂ ∧
    ∃ task ∈ ts, task.hook = .builtin .offsetPage)

/-- The two queries are of one entity. -/
theorem Trails.entity_eq (h : Trails context ts q q₂) : q₂.entity = q.entity := by
  rcases h with rfl | ⟨-, hsame, -⟩
  · rfl
  · exact hsame.entity_eq

/-- They have one count, whether they are equal or differ in their windows. -/
theorem Trails.count_eq (h : Trails context ts q q₂) :
    ∀ repository, context.repository = some repository →
      repository.count q₂ = repository.count q := by
  intro repository hrepository
  rcases h with rfl | ⟨hignores, hsame, -⟩
  · rfl
  · exact hignores repository hrepository q q₂ hsame

/-- A page takes the whole window anew. -/
theorem page_of_sameRows (h : q.SameRows q₂) (p : OffsetPage) : q₂.page p = q.page p := by
  obtain ⟨limit, offset, rfl⟩ := h
  exact Query.page_repaged limit offset q p

/-- Where a turn gives the same document again, the second run stays no further behind. -/
theorem Trails.step {b : Builtin} {q' : Query} (h : Trails context (task :: rest) q q₂)
    (hhook : task.hook = .builtin b) (hrun : b.run q document = .ok q') :
    ∃ q₂', b.run q₂ document = .ok q₂' ∧ Trails context rest q' q₂' := by
  rcases h with rfl | ⟨hignores, hsame, hlater⟩
  · exact ⟨q', hrun, .inl rfl⟩
  · by_cases hb : b = .offsetPage
    · subst hb
      obtain ⟨p, hp, rfl⟩ := Except.map_ok hrun
      refine ⟨q.page p, ?_, .inl rfl⟩
      rw [Builtin.run, hp, ← page_of_sameRows hsame p]
      rfl
    · obtain ⟨q₂', hrun₂, hsame'⟩ := (b.run_sameRows hsame document).exists_ok hrun
      obtain ⟨later, hmem, hoffset⟩ := hlater
      refine ⟨q₂', hrun₂, .inr ⟨hignores, hsame', later, ?_, hoffset⟩⟩
      -- the turn that is still to come is not this one, which is no page
      rcases List.mem_cons.mp hmem with rfl | hmem
      · rw [hhook] at hoffset
        exact absurd (Hook.builtin.inj hoffset) hb
      · exact hmem

/-- A turn that had another document is normalised to some page again, and the second run is behind
in its window until a later turn. -/
theorem Trails.recount {q' : Query} (h : Trails context (task :: rest) q q₂) (page : OffsetPage)
    (hignores : IgnoresPaging context.repository) (hhook : task.hook = .builtin .offsetPage)
    (hlater : task ∈ rest)
    (hformat : Builtin.offsetPage.format q task.request context = pure document)
    (hrun : Builtin.offsetPage.run q document = .ok q') :
    ∃ page' : OffsetPage,
      Builtin.offsetPage.format q₂ page.encode context = pure page'.encode ∧
      Trails context rest q' (q₂.page page') := by
  obtain ⟨asked, repository, total, -, hrepository, htotal, rfl⟩ :=
    Builtin.offsetPage_format_iff.mp hformat
  rw [← h.count_eq repository hrepository] at htotal
  refine ⟨page.withTotal total, Builtin.offsetPage_format_encode page hrepository htotal,
    .inr ⟨hignores, ?_, task, hlater, hhook⟩⟩
  rw [Builtin.offsetPage_run_encode] at hrun
  rw [← Except.ok.inj hrun]
  -- both queries take the window anew, so only the windows can differ afterwards
  rcases h with rfl | ⟨-, ⟨limit, offset, rfl⟩, -⟩
  · exact ⟨_, _, rfl⟩
  · exact ⟨_, _, rfl⟩

/-- The second run has the same hooks with the same documents. -/
theorem byHook_renewed (ts : List Task) (normal : Params) (documents : List Json) :
    byHook (ts.map (Task.renewed normal)) documents = byHook ts documents := by
  rw [byHook, byHook, List.map_map]
  rfl

/-- It has the same stages with them. -/
theorem byStage_renewed (ts : List Task) (normal : Params) (documents : List Json) :
    byStage (ts.map (Task.renewed normal)) documents = byStage ts documents := by
  rw [byStage, byStage, List.map_map]
  rfl

/-- The tasks of a threaded run, run again on what is in place at its end, lead to the same query
and leave everything in place. -/
theorem threads_again (hplain : Plain ts)
    (hcounts : ∀ task ∈ ts, task.hook = .builtin .offsetPage →
      1 < (ts.map Task.stage).count task.stage → IgnoresPaging context.repository)
    (h : Threads custom context q ts documents r)
    (hnormal : normal = params.setAll (byStage ts documents)) (htrails : Trails context ts q q₂) :
    ∃ again, Threads custom context q₂ (ts.map (Task.renewed normal)) again r ∧
      normal.setAll (byStage ts again) = normal := by
  induction h generalizing params q₂ with
  | nil q =>
    rcases htrails with rfl | ⟨-, -, task, htask, -⟩
    · exact ⟨[], .nil _, rfl⟩
    · cases htask
  | @cons q q' r task rest document documents hformat hrun hrest ih =>
    obtain ⟨b, hhook, hscope⟩ := hplain.builtin task List.mem_cons_self
    have hformats := Threads.formatsFor hplain.isBuiltin (.cons hformat hrun hrest)
    have hcounts' : ∀ t ∈ rest, t.hook = .builtin .offsetPage →
        1 < (rest.map Task.stage).count t.stage → IgnoresPaging context.repository := by
      intro t ht hpages htwice
      -- a stage that is repeated in the rest is repeated in the whole list
      refine hcounts t (List.mem_cons_of_mem task ht) hpages (Nat.lt_of_lt_of_le htwice ?_)
      exact (List.sublist_cons_self task.stage _).count_le t.stage
    have hplace := settled_or_recounted params hplain hformats
    rw [← hnormal] at hplace
    rw [hhook] at hrun
    rw [Formats, hhook] at hformat
    rcases hplace with hsettled | ⟨hoffset, hlater, page, hpage⟩
    · -- this turn gives its document again
      obtain ⟨q₂', hrun₂, htrails'⟩ := htrails.step hhook hrun
      obtain ⟨again, hagain, hkept⟩ := ih hplain.tail hcounts' hnormal htrails'
      have hformat₂ : Formats custom context q₂ (task.renewed normal) document := by
        rw [Formats, Task.renewed, hsettled, hhook]
        exact b.format_again hscope htrails.entity_eq (fun _ => htrails.count_eq) hformat
      refine ⟨document :: again, .cons hformat₂ ?_ hagain, ?_⟩
      · rw [Task.renewed, hhook]
        exact hrun₂
      · show (normal.set task.stage document).setAll (byStage rest again) = normal
        rw [Params.set_of_get? hsettled, hkept]
    · -- a later turn sets the page that is in place
      obtain rfl : b = .offsetPage := Hook.builtin.inj (hhook.symm.trans hoffset)
      have htwice : 1 < ((task :: rest).map Task.stage).count task.stage := by
        have honce : 0 < (rest.map Task.stage).count task.stage :=
          List.count_pos_iff.mpr (List.mem_map_of_mem hlater)
        rw [List.map_cons, List.count_cons_self]
        omega
      have hignores := hcounts task List.mem_cons_self hoffset htwice
      obtain ⟨page', hformat₂, htrails'⟩ :=
        htrails.recount page hignores hhook hlater hformat hrun
      obtain ⟨again, hagain, hkept⟩ := ih hplain.tail hcounts' hnormal htrails'
      refine ⟨page'.encode :: again, .cons ?_ ?_ hagain, ?_⟩
      · rw [Formats, Task.renewed, hpage, hhook]
        exact hformat₂
      · rw [Task.renewed, hhook]
        exact Builtin.offsetPage_run_encode q₂ page'
      · have hlength : rest.length = again.length := by
          rw [← hagain.length_eq, List.length_map]
        have hstage : task.stage ∈ (byStage rest again).map Prod.fst := by
          rw [map_fst_byStage hlength]
          exact List.mem_map_of_mem hlater
        show (normal.set task.stage page'.encode).setAll (byStage rest again) = normal
        rw [Params.setAll_set_of_mem (Params.mem_keys_of_get? hpage) hstage, hkept]

/-! ### Running again, in two passes -/

/-- In two passes the document of each turn is what stands in the stage at the end. -/
theorem settled_of_formats (params : Params) (hplain : Plain ts)
    (h : List.Forall₂ (Formats custom context q) ts documents) :
    ∀ entry ∈ byStage ts documents,
      (params.setAll (byStage ts documents)).get? entry.1 = some entry.2 := by
  intro entry hentry
  have hvalues : ∀ entry ∈ byStage ts documents, entry.2.isNull = false :=
    isNull_of_mem_byStage hplain.isBuiltin (formatsFor_of_formats h)
  obtain ⟨value, hvalue, hget⟩ := Params.get?_setAll_of_mem (p := params) hvalues
    (List.mem_map_of_mem hentry)
  obtain ⟨task, htask, hstage, hformat⟩ := exists_of_mem_byStage h hentry
  obtain ⟨other, hother, hstage', hformat'⟩ := exists_of_mem_byStage h hvalue
  have hsame : other = task := hplain.same task htask other hother (hstage'.trans hstage.symm)
  rw [hsame] at hformat'
  rw [hget, pure_inj (hformat'.symm.trans hformat)]

/-- The tasks of a run in two passes, normalised again, give the same documents. -/
theorem formats_again (hplain : Plain ts)
    (h : List.Forall₂ (Formats custom context q) ts documents)
    (hsettled : ∀ entry ∈ byStage ts documents, normal.get? entry.1 = some entry.2) :
    List.Forall₂ (Formats custom context q) (ts.map (Task.renewed normal)) documents := by
  induction h with
  | nil => exact .nil
  | @cons task document rest documents hformat _ ih =>
    obtain ⟨hfirst, hrest⟩ := List.forall_mem_cons.mp hsettled
    obtain ⟨b, hhook, hscope⟩ := hplain.builtin task List.mem_cons_self
    refine .cons ?_ (ih hplain.tail hrest)
    rw [Formats, hhook] at hformat
    rw [Formats, Task.renewed, hfirst, hhook]
    exact b.format_again hscope rfl (fun _ _ _ => rfl) hformat

/-! ### Calls -/

/-- The hooks of this library handle the stages that have parameters, and the parameters refer to no
scope of searches or orderings. -/
def PlainCall (config : Config) (options : Options Id) (entity : Entity) (params : Params) : Prop :=
  ∀ stage ∈ stagesOf config options, ∀ request, params.get? stage = some request → ∀ hook,
    resolve stage options entity config = .ok hook →
      ∃ b, hook = .builtin b ∧ b.Unscoped request

/-- The tasks of a plain call are plain. -/
theorem plain_of_tasks {entity : Entity} (hcall : PlainCall config options entity params)
    (h : tasks config options entity params (stagesOf config options) = .ok ts) : Plain ts := by
  obtain ⟨hsublist, htasks⟩ := tasks_ok h
  refine ⟨fun task htask => ?_, fun task htask other hother hstage => ?_⟩
  · obtain ⟨hrequest, hhook⟩ := htasks task htask
    exact hcall task.stage (hsublist.subset (List.mem_map_of_mem htask)) _ hrequest _ hhook
  · obtain ⟨hrequest, hhook⟩ := htasks task htask
    obtain ⟨hrequest', hhook'⟩ := htasks other hother
    rw [hstage] at hrequest' hhook'
    obtain ⟨stage, hook, request⟩ := task
    obtain ⟨stage', hook', request'⟩ := other
    rw [Task.mk.injEq]
    exact ⟨hstage, Except.ok.inj (hhook'.symm.trans hhook),
      Option.some.inj (hrequest'.symm.trans hrequest)⟩

/-- Normalising puts parameters in place only where there are some. -/
theorem isSome_setAll_byStage {entity : Entity} {stages : List String}
    (h : tasks config options entity params stages = .ok ts)
    (hlength : ts.length = documents.length)
    (hvalues : ∀ entry ∈ byStage ts documents, entry.2.isNull = false) (stage : String) :
    ((params.setAll (byStage ts documents)).get? stage).isSome = (params.get? stage).isSome := by
  by_cases hmem : stage ∈ (byStage ts documents).map Prod.fst
  · obtain ⟨value, -, hget⟩ := Params.get?_setAll_of_mem (p := params) hvalues hmem
    rw [map_fst_byStage hlength] at hmem
    obtain ⟨task, htask, rfl⟩ := List.mem_map.mp hmem
    obtain ⟨hrequest, -⟩ := (tasks_ok h).2 task htask
    rw [hget, hrequest]
    rfl
  · rw [Params.get?_setAll_of_not_mem hmem]

/-- **Normalised parameters are a fixed point.** If `Pipeline.run` on parameters without references
to scopes (`PlainCall`) gives a query and normalised parameters, then `Pipeline.run` on these gives
the same query and leaves them as they are.  Only where `Builtin.offsetPage` handles a stage that is
listed twice, in threaded mode, does it take a repository that keeps to its contract
(`IgnoresPaging`): one that counts the rows of the window can give the two turns other totals when
the first of them starts from the final page (`windowed_count_moves_page`). -/
theorem run_again (custom : String → Handler Id) (hcall : PlainCall config options q.entity params)
    (hcounts : config.mode = .threaded → ∀ stage, 1 < (stagesOf config options).count stage →
      resolve stage options q.entity config = .ok (.builtin .offsetPage) →
      IgnoresPaging options.repository)
    (h : run custom config options q params = pure (r, normal)) :
    run custom config options q normal = pure (r, normal) := by
  obtain ⟨ts, hts, hrun⟩ := run_eq_pure.mp h
  have hplain : Plain ts := plain_of_tasks hcall hts
  refine run_eq_pure.mpr ⟨ts.map (Task.renewed normal), ?_⟩
  cases hmode : config.mode with
  | twoPass =>
    rw [hmode] at hrun
    obtain ⟨documents, hformats, hall, rfl⟩ := runTwoPass_eq_pure.mp hrun
    have hvalues := isNull_of_mem_byStage hplain.isBuiltin (formatsFor_of_formats hformats)
    have hsettled := settled_of_formats params hplain hformats
    refine ⟨tasks_renewed hts fun stage _ =>
      isSome_setAll_byStage hts hformats.length_eq hvalues stage, ?_⟩
    -- in two passes every document is made at the incoming query, so all are made again
    refine runTwoPass_eq_pure.mpr ⟨documents, formats_again hplain hformats hsettled, ?_, ?_⟩
    · rw [byHook_renewed]
      exact hall
    · rw [byStage_renewed, Params.setAll_of_get? hsettled]
  | threaded =>
    rw [hmode] at hrun
    obtain ⟨documents, hthreads, rfl⟩ := runThreaded_eq_pure.mp hrun
    have hvalues := isNull_of_mem_byStage hplain.isBuiltin (hthreads.formatsFor hplain.isBuiltin)
    have hcounts' : ∀ task ∈ ts, task.hook = .builtin .offsetPage →
        1 < (ts.map Task.stage).count task.stage → IgnoresPaging options.repository := by
      obtain ⟨hsublist, htasks⟩ := tasks_ok hts
      intro task htask hpages htwice
      -- a stage is no more often among the tasks than in the list of stages
      have htwice' := Nat.lt_of_lt_of_le htwice (hsublist.count_le task.stage)
      refine hcounts hmode task.stage htwice' ?_
      rw [(htasks task htask).2, hpages]
    obtain ⟨again, hagain, hkept⟩ := threads_again hplain hcounts' hthreads rfl (.inl rfl)
    refine ⟨tasks_renewed hts fun stage _ =>
      isSome_setAll_byStage hts hthreads.length_eq hvalues stage, ?_⟩
    refine runThreaded_eq_pure.mpr ⟨again, hagain, ?_⟩
    rw [byStage_renewed, hkept]

/-- A call with a page on both sides of the search, of a repository that counts thirty rows for one
condition and eight for more. -/
def pagedTwice : Options Id :=
  ⟨some ⟨fun q => pure (if q.conjuncts.length ≤ 1 then 30 else 8), fun _ => pure []⟩, [],
    some ["paginate", "search", "paginate"], none⟩

/-- What is asked for in a search by name. -/
def searchedName : Dict Json :=
  [("name", .obj [("search_type", .str "eq"), ("search_term", .str "x")])]

/-- The last page of a search by name, asked for by a number that is too great. -/
def lastPage : Params :=
  ⟨[("search", .obj searchedName), ("paginate", .obj [("per_page", .str "5"), ("page", .int 7)])]⟩

/-- The two turns of the page see thirty and eight rows, and the page that is left is final. -/
theorem run_again_pagedTwice :
    ∃ q normal,
      run Handler.unfinished (Config.standard.withMode .threaded) pagedTwice tenantProducts
        lastPage = pure (q, normal) ∧
      run Handler.unfinished (Config.standard.withMode .threaded) pagedTwice tenantProducts
        normal = pure (q, normal) ∧
      normal.page? = some ⟨2, 5, 8, 2⟩ := by
  have hcall : PlainCall (Config.standard.withMode .threaded) pagedTwice tenantProducts.entity
      lastPage := by
    intro stage hstage request hrequest hook hhook
    simp only [stagesOf, pagedTwice, Option.getD_some, List.mem_cons, List.not_mem_nil,
      or_false] at hstage
    rcases hstage with rfl | rfl | rfl <;> cases hhook
    · exact ⟨.offsetPage, rfl, trivial⟩
    · refine ⟨.search, rfl, ?_⟩
      -- an entry with all its parts, and so no reference to a scope
      have hsearch : lastPage.get? "search" = some (.obj searchedName) := rfl
      rw [hsearch] at hrequest
      cases hrequest
      rintro _ ⟨⟩
      exact List.forall_mem_singleton.mpr ⟨_, rfl⟩
    · exact ⟨.offsetPage, rfl, trivial⟩
  have hignores : IgnoresPaging pagedTwice.repository := by
    rintro _ ⟨⟩ q _ ⟨limit, offset, rfl⟩
    rfl
  refine ⟨_, _, rfl, run_again Handler.unfinished hcall (fun _ _ _ _ => hignores) rfl, ?_⟩
  decide +kernel

/-- A count that looks at where the window starts: eight rows without an offset, four from the sixth
row on, and one from any other. -/
def windowedCount (q : Query) : Int64 :=
  match q.offset with
  | none => 8
  | some offset => if offset = 6 then 4 else 1

/-- A call with two pages one after the other, of a repository that counts the rows of windows. -/
def countedByWindow : Options Id :=
  ⟨some ⟨fun q => pure (windowedCount q), fun _ => pure []⟩, [], some ["paginate", "paginate"],
    none⟩

/-- The fourth page, two rows long. -/
def fourthPage : Params := ⟨[("paginate", .obj [("page", .int 4), ("per_page", .int 2)])]⟩

/-- **Counts of windows move pages.** Without `IgnoresPaging` the normalised parameters need not be
a fixed point.  The first turn of `fourthPage` finds eight rows and skips six, so the second one
finds four and leaves the second page.  Run again from there, the first turn skips two, and the
second one finds a single row and leaves the first page. -/
theorem windowed_count_moves_page :
    PlainCall (Config.standard.withMode .threaded) countedByWindow tenantProducts.entity
      fourthPage ∧
    ¬IgnoresPaging countedByWindow.repository ∧
    ∃ q normal q' normal',
      run Handler.unfinished (Config.standard.withMode .threaded) countedByWindow tenantProducts
        fourthPage = pure (q, normal) ∧
      run Handler.unfinished (Config.standard.withMode .threaded) countedByWindow tenantProducts
        normal = pure (q', normal') ∧
      normal.page? = some ⟨2, 2, 4, 2⟩ ∧ q.offset = some 2 ∧
      normal'.page? = some ⟨1, 2, 1, 1⟩ ∧ q'.offset = some 0 := by
  refine ⟨?_, ?_, ?_⟩
  · intro stage hstage request hrequest hook hhook
    simp only [stagesOf, countedByWindow, Option.getD_some, List.mem_cons, List.not_mem_nil,
      or_false, or_self] at hstage
    subst hstage
    cases hhook
    exact ⟨.offsetPage, rfl, trivial⟩
  · intro hignores
    -- four rows are counted from the sixth on, and eight without an offset
    have hsame : (pure 4 : ExceptT Error Id Int64) = pure 8 :=
      hignores _ rfl tenantProducts _ ⟨none, some 6, rfl⟩
    exact absurd (pure_inj hsame) (by decide)
  · exact ⟨_, _, _, _, rfl, rfl, by decide +kernel, by decide +kernel, by decide +kernel,
      by decide +kernel⟩

end Listing.Pipeline
