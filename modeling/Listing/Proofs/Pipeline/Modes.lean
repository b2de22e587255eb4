import Listing.Proofs.Pipeline.Narrowing
import Listing.Proofs.Pipeline.Progress
import Listing.Proofs.Stage.Frame

namespace Listing.Pipeline

/-!
# The two modes of the pipeline

One mode normalises everything against the incoming query before anything is applied, the other
interleaves the two.  They give the same wherever normalising does not depend on the conditions of a
query: it reads the entity, which no hook changes, and counts only for pages by offset.

* `Pipeline.CountsAlike`, `Pipeline.Uncounted` — counts do not tell queries apart, or are not asked;
* `Pipeline.formats_congr` — one task, against two queries of an entity;
* `Pipeline.threads_iff` — a threaded run normalises to what the incoming query would give;
* `Pipeline.modes_agree` — runs in both modes give the same, or neither gives anything.
-/

variable {custom : String → Handler Id} {config : Config} {options : Options Id}
  {context : Context Id} {q r : Query} {params : Params} {ts : List Task}

/-- The repository, if there is one, answers every count alike. -/
def CountsAlike (repository : Option (Repository Id)) : Prop :=
  ∀ known, repository = some known → ∀ q r, known.count q = known.count r

/-- The hook is one of this library, and pages by offset only where counts are alike. -/
def Uncounted (repository : Option (Repository Id)) (hook : Hook) : Prop :=
  ∃ b, hook = .builtin b ∧ (b = .offsetPage → CountsAlike repository)

/-- Which of two queries of an entity a task is normalised against makes no difference. -/
theorem formats_congr {task : Task} (htask : Uncounted context.repository task.hook)
    (h : r.entity = q.entity) (document : Json) :
    Formats custom context r task document ↔ Formats custom context q task document := by
  obtain ⟨b, hhook, hcounts⟩ := htask
  have hformat : b.format r task.request context = b.format q task.request context :=
    b.format_congr h task.request fun hb repository hrepository =>
      hcounts hb repository hrepository r q
  rw [Formats, Formats, hhook, Hook.format, Hook.format, hformat]

/-- Tasks that succeed one after the other are those that the incoming query normalises and that can
then be applied. -/
theorem threads_iff {documents : List Json} (q₀ : Query) (hentity : q.entity = q₀.entity)
    (hts : ∀ task ∈ ts, Uncounted context.repository task.hook) :
    Threads custom context q ts documents r ↔
      List.Forall₂ (Formats custom context q₀) ts documents ∧
        runAll custom q (byHook ts documents) = .ok r := by
  induction ts generalizing q documents with
  | nil =>
    constructor
    · intro h
      cases h
      exact ⟨.nil, rfl⟩
    · rintro ⟨hdocuments, hrun⟩
      cases hdocuments
      cases hrun
      exact .nil _
  | cons task rest ih =>
    obtain ⟨htask, hrest⟩ := List.forall_mem_cons.mp hts
    -- what a hook of this library leaves is a query of the same entity again
    have hkeep {q' : Query} {document : Json} (hrun : task.hook.run custom q document = .ok q') :
        q'.entity = q₀.entity := by
      obtain ⟨b, hhook, -⟩ := htask
      rw [hhook] at hrun
      exact (Builtin.entity_run hrun).trans hentity
    constructor
    · intro h
      cases h with
      | cons hformat hrun hmore =>
        obtain ⟨hdocuments, hall⟩ := (ih (hkeep hrun) hrest).mp hmore
        refine ⟨.cons ((formats_congr htask hentity _).mp hformat) hdocuments, ?_⟩
        show runAll custom q ((task.hook, _) :: byHook rest _) = .ok r
        rw [runAll_cons, hrun]
        exact hall
    · rintro ⟨hdocuments, hall⟩
      cases hdocuments with
      | cons hformat hmore =>
        obtain ⟨q', hrun, hall⟩ := Except.bind_ok ((runAll_cons ..).symm.trans hall)
        exact .cons ((formats_congr htask hentity _).mpr hformat) hrun
          ((ih (hkeep hrun) hrest).mpr ⟨hmore, hall⟩)

/-- **Modes agree without counts.** Where the hooks of the stages with parameters do not count
(`Uncounted`), `Pipeline.run` gives the same in both modes: one run succeeds if and only if the
other does, and then with the same query and the same normalised parameters. -/
theorem modes_agree (custom : String → Handler Id)
    (h : ∀ stage ∈ stagesOf config options, params.contains stage = true → ∀ hook,
      resolve stage options q.entity config = .ok hook → Uncounted options.repository hook)
    (outcome : Query × Params) :
    run custom (config.withMode .twoPass) options q params = pure outcome ↔
      run custom (config.withMode .threaded) options q params = pure outcome := by
  rw [run_eq_pure, run_eq_pure]
  refine exists_congr fun ts => ?_
  -- the mode has no part in finding the hooks
  have hmode (mode : FormatMode) : tasks (config.withMode mode) options q.entity params
      (stagesOf config options) = tasks config options q.entity params (stagesOf config options) :=
    tasks_congr fun stage _ => rfl
  show tasks (config.withMode .twoPass) options q.entity params (stagesOf config options) = _ ∧ _ ↔
    tasks (config.withMode .threaded) options q.entity params (stagesOf config options) = _ ∧ _
  rw [hmode, hmode]
  refine and_congr_right fun hts => ?_
  -- every task has a hook that the claim is about, as its stage is present and resolved
  have huncounted : ∀ task ∈ ts, Uncounted options.repository task.hook := by
    obtain ⟨hsublist, htasks⟩ := tasks_ok hts
    intro task htask
    obtain ⟨hrequest, hhook⟩ := htasks task htask
    refine h task.stage (hsublist.subset (List.mem_map_of_mem htask)) ?_ task.hook hhook
    rw [Params.contains, hrequest, Option.isSome_some]
  show runTwoPass custom (contextOf config options) q params ts = pure outcome ↔
    runThreaded custom (contextOf config options) q params ts = pure outcome
  rw [runTwoPass_eq_pure, runThreaded_eq_pure]
  refine exists_congr fun documents => ?_
  rw [threads_iff q rfl huncounted, and_assoc]

/-- A call with the search listed on both sides of the page, of a repository with eight rows. -/
def searchedTwice : Options Id :=
  ⟨some ⟨fun _ => pure 8, fun _ => pure []⟩, [], some ["search", "paginate", "search", "sort"],
    none⟩

/-- A search, a page beyond the last one, and an ordering. -/
def beyondLastPage : Params :=
  ⟨[("search", .obj [("name", .obj [("search_type", .str "eq"), ("search_term", .str "x")])]),
    ("paginate", .obj [("per_page", .str "5"), ("page", .int 7)]),
    ("sort", .obj [("field", .str "price"), ("order", .str "desc")])]⟩

/-- The modes agree on a call that searches twice and counts eight rows. -/
theorem modes_agree_searchedTwice :
    ∃ q params,
      run Handler.unfinished (Config.standard.withMode .twoPass) searchedTwice tenantProducts
        beyondLastPage = pure (q, params) ∧
      run Handler.unfinished (Config.standard.withMode .threaded) searchedTwice tenantProducts
        beyondLastPage = pure (q, params) ∧
      params.page? = some ⟨2, 5, 8, 2⟩ ∧
      q.selectSql = "SELECT p0.* FROM products AS p0 " ++
        "WHERE p0.tenant = $1 AND p0.name = $2 AND p0.name = $3 " ++
        "ORDER BY p0.price DESC LIMIT 5 OFFSET 5" := by
  have hcounts : CountsAlike searchedTwice.repository := by
    rintro _ ⟨⟩ q r
    rfl
  have huncounted : ∀ stage ∈ stagesOf .standard searchedTwice,
      beyondLastPage.contains stage = true → ∀ hook,
      resolve stage searchedTwice tenantProducts.entity .standard = .ok hook →
      Uncounted searchedTwice.repository hook := by
    intro stage hstage _ hook hhook
    simp only [stagesOf, searchedTwice, Option.getD_some, List.mem_cons, List.not_mem_nil,
      or_false] at hstage
    rcases hstage with rfl | rfl | rfl | rfl <;> cases hhook <;> exact ⟨_, rfl, fun _ => hcounts⟩
  refine ⟨_, _, rfl, (modes_agree Handler.unfinished huncounted _).mp rfl, ?_, ?_⟩
  · decide +kernel
  · decide +kernel

end Listing.Pipeline
