import Listing.Pipeline.Run
import Listing.Proofs.Query.Clause
import Listing.Proofs.Stage.Frame

namespace Listing

/-!
# Requests narrow queries

Whatever a request asks for, the query that it leads to gives no row that the incoming query does
not give: alternatives are only ever added to conditions of the request itself.

* `Query.Narrows` — a query keeps the joins and the conditions of another, in place;
* `Query.Narrows.attach` — conditions without a tag are never given an alternative;
* `Query.Narrows.search` and the lemmas after it — what each step of a hook keeps;
* `Pipeline.KeptByHooks.yields_run` — what the hooks of this library keep, a run of them keeps;
* `Pipeline.run_narrows` — what a run of the pipeline keeps.
-/

open Sql (Atom Condition)

namespace Query

/-- No condition of the query has a tag: none of them comes from a search. -/
def Untagged (q : Query) : Prop := ∀ x ∈ q.conjuncts, x.tag = none

/-- The second query is sound, and has the joins and the conditions of the first one before its
own. -/
structure Narrows (q r : Query) : Prop where
  joins : q.joins <+: r.joins
  conjuncts : q.conjuncts <+: r.conjuncts
  sound : r.Sound

/-- A sound query narrows itself. -/
theorem narrows_refl {q : Query} (hq : q.Sound) : q.Narrows q :=
  ⟨List.prefix_refl _, List.prefix_refl _, hq⟩

/-- What a list begins with, up to an item that does not occur there. -/
theorem prefix_of_not_mem {α : Type} {x : α} {xs before after : List α}
    (h : xs <+: before ++ x :: after) (hx : x ∉ xs) : xs <+: before := by
  have hupto : before ++ [x] <+: before ++ x :: after :=
    (List.prefix_append_right_inj before).mpr (List.prefix_append [x] after)
  rcases List.prefix_or_prefix_of_prefix h hupto with hshort | hlong
  · rcases List.prefix_concat_iff.mp hshort with rfl | hbefore
    · exact absurd (List.mem_append_right before List.mem_cons_self) hx
    · exact hbefore
  · exact absurd (hlong.subset (List.mem_append_right before List.mem_cons_self)) hx

namespace Narrows

variable {q r r' : Query}

/-- Joins are added after those that are there, and leave the conditions. -/
theorem joined (h : q.Narrows r) {reached : Query × Binding} (hjoined : Joined r reached) :
    q.Narrows reached.1 := by
  refine ⟨h.joins.trans hjoined.joins, ?_, h.sound.joined hjoined⟩
  rw [hjoined.conjuncts]
  exact h.conjuncts

/-- A condition with a tag is added after those that are there. -/
theorem tagged (h : q.Narrows r) (tag : String) {c : Condition} (hc : c.Resolved) :
    q.Narrows (r.tagged tag c) :=
  ⟨h.joins, h.conjuncts.trans (List.prefix_append _ _), h.sound.tagged tag hc⟩

/-- A condition of a search is attached after the conditions without a tag, or to one after them. -/
theorem attach (hq : q.Untagged) (h : q.Narrows r) (tag : String) (combine : Combine)
    {c : Condition} (hc : c.Resolved) : q.Narrows (r.attach tag combine c) := by
  have hsound := h.sound.attach tag combine hc
  rcases r.attach_cases tag combine c with
    ⟨d, -, hattach⟩ | ⟨before, x, after, hconjuncts, hx, hattach⟩
  · rw [hattach] at hsound ⊢
    exact ⟨h.joins, h.conjuncts.trans (List.prefix_append _ _), hsound⟩
  · rw [hattach] at hsound ⊢
    have hprefix := h.conjuncts
    rw [hconjuncts] at hprefix
    -- the condition has a tag, and none of the incoming query has
    have hnot : x ∉ q.conjuncts := by
      intro hmem
      rw [hq x hmem] at hx
      cases hx
    have hbefore : q.conjuncts <+: before := prefix_of_not_mem hprefix hnot
    -- it is changed in place, behind what is kept
    exact ⟨h.joins, hbefore.trans (List.prefix_append _ _), hsound⟩

/-- One criterion of a search. -/
theorem search (hq : q.Untagged) (h : q.Narrows r) {c : Criterion} (hrun : r.search c = .ok r') :
    q.Narrows r' := by
  rcases search_ok hrun with ⟨-, rfl⟩ | ⟨-, -, operand, condition, hoperand, hcondition, rfl⟩
  · exact h
  -- the path may add joins before the condition is made
  · have hjoined := joined_followFrom r h.sound.base c.path
    have hresolved := operand_resolved hjoined.source hoperand
    exact (h.joined hjoined).attach hq c.tag c.combine
      (SearchOperator.condition_resolved hresolved hcondition)

/-- One key of an ordering. -/
theorem sort (h : q.Narrows r) {key : SortKey} (hrun : r.sort key = .ok r') : q.Narrows r' := by
  rcases sort_ok hrun with ⟨-, rfl⟩ | ⟨direction, operand, -, -, rfl⟩
  · exact h
  · have hjoined := h.joined (joined_followFrom r h.sound.base key.path)
    exact ⟨hjoined.joins, hjoined.conjuncts, hjoined.sound.base, hjoined.sound.resolved⟩

/-- A page leaves joins and conditions. -/
theorem page (h : q.Narrows r) (p : OffsetPage) : q.Narrows (r.page p) :=
  ⟨h.joins, h.conjuncts, h.sound.base, h.sound.resolved⟩

/-- The rows after a key. -/
theorem pageAfter (h : q.Narrows r) {p : KeysetPage} (hrun : r.pageAfter p = .ok r') :
    q.Narrows r' := by
  rcases pageAfter_ok hrun with ⟨-, rfl⟩ | ⟨-, key, hkey, rfl⟩
  · exact ⟨h.joins, h.conjuncts, h.sound.base, h.sound.resolved⟩
  · have hresolved := columnOperand_resolved h.sound.base hkey
    have hsound := h.sound.also (Condition.resolved_compare hresolved .gt p.lastSeenKey)
    exact ⟨h.joins, h.conjuncts.trans (List.prefix_append _ _), hsound.base, hsound.resolved⟩

/-- Every step of a hook narrows what has been narrowed. -/
theorem keptBySteps (hq : q.Untagged) : KeptBySteps q.Narrows where
  search h hstep := h.search hq hstep
  sort h hstep := h.sort hstep
  page p h := h.page p
  pageAfter h hstep := h.pageAfter hstep

end Narrows

end Query

/-! ### Runs of the pipeline -/

namespace Pipeline

variable {m : Type → Type} {custom : String → Handler m} {config : Config}
  {options : Options m} {q r : Query}

/-- The hook is one of this library. -/
def IsBuiltin (hook : Hook) : Prop := ∃ b, hook = .builtin b

/-- The stages of the call that have a hook have one of this library. -/
def AllBuiltin (config : Config) (options : Options m) (entity : Entity) : Prop :=
  ∀ stage ∈ stagesOf config options, ∀ hook,
    resolve stage options entity config = .ok hook → IsBuiltin hook

/-- Every task has the hook of its stage. -/
theorem isBuiltin_of_tasks {entity : Entity} {params : Params} {stages : List String}
    (h : ∀ stage ∈ stages, ∀ hook, resolve stage options entity config = .ok hook → IsBuiltin hook)
    {ts : List Task} (hrun : tasks config options entity params stages = .ok ts) :
    ∀ task ∈ ts, IsBuiltin task.hook := by
  induction stages generalizing ts with
  | nil =>
    cases hrun
    exact fun task htask => absurd htask List.not_mem_nil
  | cons stage rest ih =>
    obtain ⟨hstage, hrest⟩ := List.forall_mem_cons.mp h
    rw [tasks] at hrun
    split at hrun
    · exact ih hrest hrun
    · obtain ⟨hook, hhook, hrun⟩ := Except.bind_ok hrun
      obtain ⟨more, hmore, hrun⟩ := Except.bind_ok hrun
      cases hrun
      exact List.forall_mem_cons.mpr ⟨hstage hook hhook, ih hrest hmore⟩

/-- Hooks that are registered nowhere else are those of this library. -/
theorem allBuiltin_of_hooks {entity : Entity}
    (hoptions : ∀ stage hook, Dict.get? options.hooks stage = some hook → IsBuiltin hook)
    (hentity : ∀ stage hook, entity.hook? stage = some hook → IsBuiltin hook)
    (hconfig : ∀ stage hook, Dict.get? config.hooks stage = some hook → IsBuiltin hook) :
    AllBuiltin config options entity := by
  intro stage _ hook hhook
  unfold resolve at hhook
  split at hhook
  · rename_i found hfound
    cases hhook
    simp only [Option.orElse_eq_orElse, Option.orElse_eq_or, Option.or_eq_some_iff] at hfound
    -- the four places where a hook is looked for, in order
    rcases hfound with h | ⟨-, h | ⟨-, h | ⟨-, h⟩⟩⟩
    · exact hoptions stage hook h
    · exact hentity stage hook h
    · exact hconfig stage hook h
    · obtain ⟨b, -, rfl⟩ := Option.map_eq_some_iff.mp h
      exact ⟨b, rfl⟩
  · cases hhook

/-! ### What all hooks keep -/

/-- Every hook of this library keeps the property, whatever document it is run with. -/
def KeptByHooks (P : Query → Prop) : Prop :=
  ∀ (b : Builtin) document r r', P r → b.run r document = .ok r' → P r'

variable {P : Query → Prop}

/-- What all hooks keep, the hook of a task keeps if it is one of them. -/
theorem KeptByHooks.of_run (hP : KeptByHooks P) (h : P r) {hook : Hook} (hhook : IsBuiltin hook)
    {document : Json} {r' : Query} (hrun : hook.run custom r document = .ok r') : P r' := by
  obtain ⟨b, rfl⟩ := hhook
  exact hP b document r r' h hrun

/-- So do the hooks of all tasks in turn. -/
theorem KeptByHooks.of_runAll (hP : KeptByHooks P) (h : P r) {ready : List (Hook × Json)}
    (hready : ∀ entry ∈ ready, IsBuiltin entry.1) {r' : Query}
    (hrun : runAll custom r ready = .ok r') : P r' :=
  Except.foldlM_ok (fun entry hentry _ _ hr hstep =>
    hP.of_run hr (hready entry hentry) hstep) h hrun

variable [Monad m] [LawfulMonad m]

/-- Normalising parameters leaves the hooks as they are. -/
theorem yields_formatAll (context : Context m) (params : Params) {ts : List Task}
    (h : ∀ task ∈ ts, IsBuiltin task.hook) :
    Yields (fun outcome => ∀ entry ∈ outcome.1, IsBuiltin entry.1)
      (formatAll custom context q params ts) := by
  induction ts generalizing params with
  | nil => exact yields_pure fun entry hentry => absurd hentry List.not_mem_nil
  | cons task rest ih =>
    obtain ⟨htask, hrest⟩ := List.forall_mem_cons.mp h
    rw [formatAll]
    refine yields_bind (yields_trivial _) ?_
    intro formatted _
    refine yields_bind (ih _ hrest) ?_
    intro outcome houtcome
    exact yields_pure (List.forall_mem_cons.mpr ⟨htask, houtcome⟩)

namespace KeptByHooks

/-- A run in two passes keeps what all hooks keep, because normalising gives no query. -/
theorem yields_runTwoPass (hP : KeptByHooks P) (h : P q) (context : Context m) (params : Params)
    {ts : List Task} (hts : ∀ task ∈ ts, IsBuiltin task.hook) :
    Yields (fun outcome => P outcome.1) (runTwoPass custom context q params ts) := by
  refine yields_bind (yields_formatAll context params hts) ?_
  intro ready hready
  refine yields_bind (yields_liftOutcome fun r hrun => hP.of_runAll h hready hrun) ?_
  intro r hr
  exact yields_pure hr

/-- So does a threaded run, where each hook goes on with the query of the one before. -/
theorem yields_runThreaded (hP : KeptByHooks P) (h : P r) (context : Context m) (params : Params)
    {ts : List Task} (hts : ∀ task ∈ ts, IsBuiltin task.hook) :
    Yields (fun outcome => P outcome.1) (runThreaded custom context r params ts) := by
  induction ts generalizing r params with
  | nil => exact yields_pure h
  | cons task rest ih =>
    obtain ⟨htask, hrest⟩ := List.forall_mem_cons.mp hts
    rw [runThreaded]
    refine yields_bind (yields_trivial _) ?_
    intro formatted _
    refine yields_bind (yields_liftOutcome fun r' hrun => hP.of_run h htask hrun) ?_
    intro r' hr'
    exact ih hr' _ hrest

/-- What all hooks keep, a run keeps. -/
theorem yields_run (hP : KeptByHooks P) (custom : String → Handler m) (h : P q)
    (hhooks : AllBuiltin config options q.entity) (params : Params) :
    Yields (fun outcome => P outcome.1) (run custom config options q params) := by
  refine yields_bind (yields_liftOutcome fun ts hrun => isBuiltin_of_tasks hhooks hrun) ?_
  intro ts hts
  cases config.mode with
  | twoPass => exact hP.yields_runTwoPass h _ params hts
  | threaded => exact hP.yields_runThreaded h _ params hts

end KeptByHooks

/-! ### What requests leave in place -/

/-- The hooks keep the joins and the untagged conditions of a query before what they add. -/
theorem narrows_keptByHooks (hq : q.Untagged) : KeptByHooks q.Narrows :=
  fun _ _ _ _ hr hrun => (Query.Narrows.keptBySteps hq).run hr hrun

/-- **Requests only narrow queries.** If the hooks of this library handle the stages (`AllBuiltin`),
whatever comes out of `Pipeline.run` keeps the joins and the untagged conditions of the incoming
query in place, and where its `WHERE` clause holds (`Query.WhereIs`), so does that of the incoming
query. -/
theorem run_narrows (custom : String → Handler m) (hsound : q.Sound) (huntagged : q.Untagged)
    (hhooks : AllBuiltin config options q.entity) (params : Params) :
    Yields (fun outcome : Query × Params =>
        q.joins <+: outcome.1.joins ∧ q.conjuncts <+: outcome.1.conjuncts ∧
        ∀ v, outcome.1.WhereIs v .yes → q.WhereIs v .yes)
      (run custom config options q params) := by
  have hnarrows : Yields (fun outcome => q.Narrows outcome.1)
      (run custom config options q params) :=
    (narrows_keptByHooks huntagged).yields_run custom (Query.narrows_refl hsound) hhooks params
  refine yields_mono ?_ hnarrows
  intro outcome h
  refine ⟨h.joins, h.conjuncts, ?_⟩
  -- a clause that goes on with further conjuncts implies the shorter one
  intro v hyes
  exact Query.whereIs_of_prefix hsound h.sound h.conjuncts hyes

/-- The products of one tenant. -/
def tenantProducts : Query :=
  ⟨.empty, ⟨⟨'p', 0⟩, "product"⟩, .empty "product" "products", [],
    [⟨none, .compare (.column ⟨'p', 0⟩ (.bare "tenant")) .eq (.text "a")⟩], [], none, none, none⟩

/-- The condition on the tenant is about a column of the products. -/
theorem sound_tenantProducts : tenantProducts.Sound := by
  have hbase : (⟨'p', 0⟩ : Sql.Alias).Assigned := ⟨"products", 0, by decide⟩
  have htenant : Sql.Operand.Resolved (.column ⟨'p', 0⟩ (.bare "tenant")) :=
    ⟨hbase, ⟨"tenant", rfl⟩⟩
  exact ⟨hbase, List.forall_mem_singleton.mpr (Condition.resolved_compare htenant .eq _)⟩

/-- A search for one of two names. -/
def eitherName : Params :=
  ⟨[("search", .obj [("name", .obj [("search_type", .str "eq"), ("search_term", .str "x")]),
    ("other", .obj [("field", .str "name"), ("search_type", .str "eq"), ("search_term", .str "y"),
      ("search_expr", .str "or_where")])])]⟩

/-- The search for another name is an alternative to the name, and not to the tenant. -/
theorem run_narrows_alternative :
    ∃ q params,
      run (m := Id) Handler.unfinished .standard .none tenantProducts eitherName =
        ExceptT.mk (.ok (q, params)) ∧
      q.selectSql = "SELECT p0.* FROM products AS p0 " ++
        "WHERE p0.tenant = $1 AND (p0.name = $2 OR p0.name = $3)" ∧
      tenantProducts.conjuncts <+: q.conjuncts ∧
      ∀ v, q.WhereIs v .yes → tenantProducts.WhereIs v .yes := by
  have huntagged : tenantProducts.Untagged := List.forall_mem_singleton.mpr rfl
  have hhooks : AllBuiltin .standard (.none : Options Id) tenantProducts.entity :=
    allBuiltin_of_hooks nofun nofun nofun
  have hkeeps := of_ensures_id
    (run_narrows Handler.unfinished sound_tenantProducts huntagged hhooks eitherName)
  refine ⟨_, _, rfl, by decide +kernel, ?_⟩
  exact (hkeeps _ rfl).2

end Pipeline

end Listing
