import Listing.Proofs.Failure
import Listing.Proofs.Pipeline.Calls
import Listing.Proofs.Search.Delivery

namespace Listing

/-!
# When the shape of a term is looked at

A strict search refuses a criterion that is written out, as soon as it is normalised, if its term
has not the shape that its operator needs.  The criterion that a scope makes is not looked at then;
it is refused when it is applied, and by then the rows may have been counted.

* `Criterion.misfit`, `Error.IsMisfit` — the error of a term of the wrong shape;
* `StrictSearch.unchecked` — what is read of an entry before its term is looked at;
* `StrictSearch.ScopesFit` — the criteria that scopes make for a request have terms that fit;
* `StrictSearch.check_normalise` — exactly then all criteria of the request do;
* `Query.no_misfit_search` — a criterion with a term that fits is never refused for it;
* `Pipeline.run_of_first_refused` — a call whose first stage is refused does nothing more;
* `Builtin.shapes_checked` — what a strict search looks at while normalising, and what is left to be
  found out when it is applied;
* `Builtin.scope_misfit_late` — a scope whose misfit is found out after the rows were counted.
-/

/-! ### Misfits -/

/-- The error is that of a term that has not the shape that an operator needs. -/
def Error.IsMisfit (e : Error) : Prop :=
  ∃ term operator, e = .invalidParams (.termMisfit term operator)

namespace Criterion

/-- The error of a criterion whose term has not the shape that its operator needs. -/
def misfit (c : Criterion) : Error := .invalidParams (.termMisfit c.term c.operator)

variable {c : Criterion}

/-- A criterion that does not pass is refused for its term. -/
theorem check_eq_misfit (h : c.check ≠ .ok ()) : c.check = .error c.misfit := by
  unfold check at h ⊢
  split
  · rename_i hfits
    rw [if_pos hfits] at h
    exact absurd rfl h
  · rfl

end Criterion

/-! ### Requests -/

namespace StrictSearch

variable {q : Query} {name : String} {fields : Dict Json} {c : Criterion}

/-- The criterion of an object, before its term is looked at. -/
def unchecked (hook name : String) (fields : Dict Json) : Except Error Criterion := do
  let field ← field name fields
  let path ← path fields
  let operator ← operator hook fields
  let term ← term hook fields
  let combine ← (combine? fields).mapError fun value => .invalidParams (.unknownCombine value)
  return { field, path, operator, term, combine }

/-- The term of an entry is looked at last. -/
theorem entry_eq (hook name : String) (fields : Dict Json) :
    entry hook name fields =
      unchecked hook name fields >>= fun c => c.check >>= fun _ => pure c := by
  simp only [entry, unchecked, bind_assoc, pure_bind]

/-- An object with a misfit is refused. -/
theorem normaliseEntry_misfit (hread : unchecked "search" name fields = .ok c)
    (hmisfit : c.check ≠ .ok ()) : normaliseEntry q (name, .obj fields) = .error c.misfit := by
  have hentry : entry "search" name fields = .error c.misfit := by
    rw [entry_eq, hread]
    show (c.check >>= fun _ => _) = _
    rw [Criterion.check_eq_misfit hmisfit]
    rfl
  rw [normaliseEntry]
  simp only
  rw [hentry]
  rfl

/-- The criteria that scopes make for a request have terms that fit. -/
def ScopesFit (q : Query) (request : Json) : Prop :=
  ∀ entries, request = .obj entries → ∀ x ∈ entries, ∀ c, expand q x.1 x.2 = .ok c →
    c.check = .ok ()

/-- The criterion of an entry fits if it is written out, or if the scope of the entry makes one that
does. -/
theorem check_normaliseEntry {x : String × Json} {y : String × Criterion}
    (h : normaliseEntry q x = .ok y) :
    y.2.check = .ok () ↔ ∀ c, expand q x.1 x.2 = .ok c → c.check = .ok () := by
  unfold normaliseEntry at h
  split at h
  · rename_i fields hfields
    obtain ⟨c, hc, h⟩ := Except.bind_ok h
    cases h
    refine ⟨fun _ d hd => ?_, fun _ => (entry_ok hc).2⟩
    exact absurd hfields (ne_obj_of_expand hd fields)
  · obtain ⟨c, hc, h⟩ := Except.bind_ok h
    cases h
    refine ⟨fun hcheck d hd => ?_, fun hall => hall c hc⟩
    cases hc.symm.trans hd
    exact hcheck

/-- The criteria of a request fit exactly if those that scopes make do. -/
theorem check_normalise {request : Json} {criteria : Criteria}
    (h : normalise q request = .ok criteria) :
    (∀ entry ∈ criteria, entry.2.check = .ok ()) ↔ ScopesFit q request := by
  obtain ⟨entries, hobject, h⟩ := Except.bind_ok h
  obtain rfl := Request.object_ok hobject
  constructor
  · rintro hall _ ⟨⟩ x hx
    obtain ⟨y, hy, hrun⟩ := Except.mapM_ok_of_mem h hx
    exact (check_normaliseEntry hrun).mp (hall y hy)
  · intro hfit y hy
    obtain ⟨x, hx, hrun⟩ := Except.mapM_ok h y hy
    exact (check_normaliseEntry hrun).mpr (hfit entries rfl x hx)

/-- The first object with a misfit is what the request is refused for. -/
theorem normalise_misfit {before after : Dict Json} {earlier : Criteria}
    (hbefore : before.mapM (normaliseEntry q) = .ok earlier)
    (hread : unchecked "search" name fields = .ok c) (hmisfit : c.check ≠ .ok ()) :
    normalise q (.obj (before ++ (name, .obj fields) :: after)) = .error c.misfit := by
  show (before ++ (name, .obj fields) :: after).mapM (normaliseEntry q) = _
  rw [List.mapM_append, hbefore, List.mapM_cons, normaliseEntry_misfit hread hmisfit]
  rfl

end StrictSearch

/-! ### Criteria that are applied -/

/-- If the outcome is an error, it is none of a misfit. -/
abbrev NoMisfit {α : Type} (x : Except Error α) : Prop := FailsWith (fun e => ¬ e.IsMisfit) x

/-- An error of any other kind is no misfit. -/
theorem no_misfit_error {α : Type} {e : Error} (h : ∀ t op, e ≠ .invalidParams (.termMisfit t op)) :
    NoMisfit (.error e : Except Error α) := by
  refine failsWith_error.mpr ?_
  rintro ⟨t, op, he⟩
  exact h t op he

namespace Query

/-- A name that is no identifier is no misfit. -/
theorem no_misfit_columnOperand (b : Binding) (name : String) :
    NoMisfit (columnOperand b name) := by
  unfold columnOperand
  split
  · exact failsWith_ok _
  · exact no_misfit_error nofun

/-- Nor is a field that does not become an operand. -/
theorem no_misfit_operand (q : Query) (b : Binding) (field : Field) :
    NoMisfit (q.operand b field) := by
  rw [operand]
  cases q.fieldAt b field with
  | column name => exact no_misfit_columnOperand b name
  | computed template args =>
    refine (FailsWith.mapM fun name _ => no_misfit_columnOperand b name).bind fun columns _ => ?_
    split
    · exact failsWith_ok _
    · exact no_misfit_error nofun

/-- Making a condition fails in other ways only. -/
theorem no_misfit_condition (lhs : Sql.Operand) (operator : SearchOperator) (term : Term) :
    NoMisfit (operator.condition lhs term) := by
  unfold SearchOperator.condition
  split
  all_goals try split
  all_goals first
    | exact failsWith_ok _
    | exact no_misfit_error nofun

/-- A criterion whose term fits is not refused for it. -/
theorem no_misfit_search (q : Query) {c : Criterion} (h : c.check = .ok ()) :
    NoMisfit (q.search c) := by
  unfold search
  split
  · exact failsWith_ok _
  · rw [h]
    refine (no_misfit_operand _ _ c.field).bind fun operand _ => ?_
    refine (no_misfit_condition operand c.operator c.term).bind fun condition _ => ?_
    exact failsWith_ok _

end Query

/-! ### Calls of the pipeline -/

variable {m : Type → Type} [Monad m] [LawfulMonad m]

/-- A call whose first stage cannot be normalised does nothing more, in either mode. -/
theorem Pipeline.run_of_first_refused {custom : String → Handler m} {config : Config}
    {options : Options m} {q : Query} {params : Params} {task : Task} {ts : List Task} {e : Error}
    (htasks : tasks config options q.entity params (stagesOf config options) = .ok (task :: ts))
    (hformat : task.hook.format custom q task.request (contextOf config options) = throw e) :
    run custom config options q params = throw e := by
  have hstop {α β : Type} (f : α → ExceptT Error m β) : (throw e >>= f) = throw e :=
    liftOutcome_error_bind e f
  rw [run, htasks, liftOutcome_ok_bind]
  cases config.mode with
  | twoPass => simp only [runTwoPass, formatAll, hformat, hstop]
  | threaded => simp only [runThreaded, hformat, hstop]

namespace Builtin

/-- Criteria that fit are not refused for a misfit where their document is applied. -/
theorem no_misfit_run {criteria : Criteria} (h : ∀ entry ∈ criteria, entry.2.check = .ok ())
    (r : Query) : NoMisfit (search.run r criteria.encode) := by
  refine FailsWith.bind (.mapError ?_ _) fun found hfound => ?_
  · rintro cause ⟨t, op, he⟩
    cases he
  · have hread := Criteria.settled_of_decode_encode (Except.mapError_ok hfound)
    refine FailsWith.foldlM (fun entry hentry s => s.no_misfit_search ?_) r
    obtain ⟨c, hc, hsettled⟩ := hread entry hentry
    rw [hsettled]
    exact Criterion.check_settled (h _ hc)

/-- **Shapes are checked eagerly.** `Builtin.search` refuses a misfit that is written out while it
normalises the request, after the faults of earlier entries; where the search comes first, that is
all that `Pipeline.run` does.  A request that it normalises, without a call of the repository, has
nothing but criteria whose terms fit (`Criterion.check`) exactly if its scopes make such criteria
(`StrictSearch.ScopesFit`): then no query refuses them for a misfit (`Error.IsMisfit`), and else, if
the term that arrives does not fit, no query takes them. -/
theorem shapes_checked (q : Query) (request : Json) (context : Context m) :
    (∀ before name fields after earlier c,
      request = .obj (before ++ (name, .obj fields) :: after) →
      before.mapM (StrictSearch.normaliseEntry q) = .ok earlier →
      StrictSearch.unchecked "search" name fields = .ok c → c.check ≠ .ok () →
      search.format q request context = throw c.misfit ∧
        ∀ custom config options params stage more,
          Pipeline.tasks config options q.entity params (Pipeline.stagesOf config options) =
            .ok (⟨stage, .builtin search, request⟩ :: more) →
          Pipeline.run custom config (options : Options m) q params = throw c.misfit) ∧
    ∀ criteria, StrictSearch.normalise q request = .ok criteria →
      search.format q request context = pure criteria.encode ∧
      ((∀ entry ∈ criteria, entry.2.check = .ok ()) ↔ StrictSearch.ScopesFit q request) ∧
      (StrictSearch.ScopesFit q request →
        ∀ r e, search.run r criteria.encode = .error e → ¬ e.IsMisfit) ∧
      ∀ earlier name c later, criteria = earlier ++ (name, c) :: later →
        name ∉ Dict.keys later → c.settled.check ≠ .ok () →
        ∀ r s, search.run r criteria.encode ≠ .ok s := by
  constructor
  · rintro before name fields after earlier c rfl hbefore hread hmisfit
    -- the misfit is met while formatting, so no repository is asked, whatever the context
    have hformat (known : Context m) : search.format q
        (.obj (before ++ (name, .obj fields) :: after)) known = throw c.misfit := by
      rw [format, StrictSearch.normalise_misfit hbefore hread hmisfit]
      rfl
    refine ⟨hformat context, ?_⟩
    intro custom config options params stage more htasks
    exact Pipeline.run_of_first_refused htasks (hformat (Pipeline.contextOf config options))
  · intro criteria hcriteria
    have hchecks := StrictSearch.check_normalise hcriteria
    refine ⟨?_, hchecks, fun hfit r => no_misfit_run (hchecks.mpr hfit) r, ?_⟩
    · rw [format, hcriteria]
      rfl
    · rintro earlier name c later rfl hlast hmisfit r s hrun
      obtain ⟨found, hread, hall⟩ := run_ok hrun
      -- of entries with one name the last is applied, so it must come last
      obtain ⟨-, hmem⟩ := Criteria.mem_of_decode_encode hlast hread
      exact hmisfit (Query.check_of_searchAll hall _ hmem)

/-- Products with a scope for those of a list. -/
def listedProduct : Entity :=
  (Entity.empty "product" "products").withSearchScope "members" fun ids =>
    .ok ⟨.column "id", [], .isIn, ids, .and⟩

/-- All products, of which some may be listed. -/
def listedProducts : Query :=
  ⟨Registry.empty.insert listedProduct rfl, ⟨⟨'p', 0⟩, "product"⟩, listedProduct, [], [], [], none,
    none, none⟩

/-- A range without its upper bound, after a scope with a list that it takes. -/
def halfRange : Json :=
  .obj [("members", .arr [.int 1, .int 2]),
    ("price", .obj [("search_type", .str "between"), ("search_term", .arr [.int 1])])]

/-- The call that searches for the range and wants a page. -/
def pagedRange : Params := ⟨[("search", halfRange), ("paginate", .obj [])]⟩

/-- The range is refused before the rows are counted for the page; the scope alone is fine. -/
theorem shapes_checked_range :
    Pipeline.run Handler.unfinished .standard Pipeline.counted listedProducts pagedRange =
      throw (.invalidParams (.termMisfit (.list [.int 1]) .between)) ∧
    StrictSearch.ScopesFit listedProducts (.obj [("members", .arr [.int 1, .int 2])]) := by
  have hmembers : StrictSearch.normalise listedProducts
      (.obj [("members", .arr [.int 1, .int 2])]) =
        .ok [("members", ⟨.column "id", [], .isIn, .list [.int 1, .int 2], .and⟩)] := rfl
  let context := Pipeline.contextOf .standard Pipeline.counted
  constructor
  · have hrange := (shapes_checked listedProducts halfRange context).1
      [("members", .arr [.int 1, .int 2])] "price" _ [] _
      ⟨.column "price", [], .between, .list [.int 1], .and⟩ rfl hmembers rfl nofun
    exact hrange.2 Handler.unfinished .standard Pipeline.counted pagedRange "search" _ rfl
  · have hlisted := (shapes_checked listedProducts _ context).2 _ hmembers
    exact hlisted.2.1.mp (List.forall_mem_singleton.mpr rfl)

/-- A page of the products of a list that is none. -/
def unlisted : Params := ⟨[("search", .obj [("members", .int 5)]), ("paginate", .obj [])]⟩

/-- **A misfit of a scope is late.** A scope is given a number where its criterion needs a list.
The request is normalised all the same, its rows are counted for the page, and only then is it
refused for the misfit. -/
theorem scope_misfit_late :
    ∃ criteria, StrictSearch.normalise listedProducts (.obj [("members", .int 5)]) = .ok criteria ∧
      search.format listedProducts (.obj [("members", .int 5)]) bareContext =
        pure criteria.encode ∧
      ¬ (∀ entry ∈ criteria, entry.2.check = .ok ()) ∧
      search.run listedProducts criteria.encode =
        .error (.invalidParams (.termMisfit (.int 5) .isIn)) ∧
      Pipeline.runFrom [] (Pipeline.run Handler.unfinished .standard Pipeline.counted
        listedProducts unlisted) =
        (.error (.invalidParams (.termMisfit (.int 5) .isIn)),
          [.count listedProducts (.ok 8)]) := by
  refine ⟨_, rfl, rfl, ?_, rfl, rfl⟩
  intro hall
  cases hall _ List.mem_cons_self

end Builtin

end Listing
