import Listing.Proofs.Query.Frame
import Listing.Stage.Handler

namespace Listing

/-!
# What a hook looks at

Parameters are normalised by the entity of a query and, for pages by offset, by one count of its
rows.  Applying them keeps the entity, and the window decides nothing but the window.

* `Builtin.format_congr` — normalising is the same for queries of one entity and one count;
* `Query.KeptBySteps` — properties that every step of a hook keeps, with `KeptBySteps.run`;
* `Builtin.entity_run` — applying normalised parameters keeps the entity;
* `Builtin.leavesWindow`, `Builtin.run_repaged` — a search and an ordering leave the window;
* `Builtin.run_sameRows` — queries that differ in their windows at most stay so;
* `Builtin.run_offsetPage_comm` — so a page by offset commutes with a search and an ordering.
-/

variable {q r : Query}

/-! ### Normalising -/

/-- A scope is looked up in the entity, and makes the same of its value. -/
theorem StrictSearch.expand_congr (h : r.entity = q.entity) (name : String) (value : Json) :
    expand r name value = expand q name value := by
  rw [expand, expand, h]

/-- So a search is normalised alike for two queries of one entity. -/
theorem StrictSearch.normalise_congr (h : r.entity = q.entity) (request : Json) :
    normalise r request = normalise q request := by
  have hentry : normaliseEntry r = normaliseEntry q := by
    funext entry
    unfold normaliseEntry
    split
    · rfl
    · rw [expand_congr h]
  rw [normalise, normalise, hentry]

/-- So is a lenient one. -/
theorem LenientSearch.normalise_congr (h : r.entity = q.entity) (request : Json) :
    normalise r request = normalise q request := by
  have hentry : normaliseEntry r = normaliseEntry q := by
    funext entry
    unfold normaliseEntry
    split
    · rfl
    · rw [StrictSearch.expand_congr h]
  rw [normalise, normalise, hentry]

/-- A scope of an ordering is looked up in the entity as well. -/
theorem StrictSort.expand_congr (h : r.entity = q.entity) (fields : Dict Json) :
    expand r fields = expand q fields := by
  rw [expand, expand, h]

/-- So an ordering is normalised alike for two queries of one entity. -/
theorem StrictSort.normalise_congr (h : r.entity = q.entity) (request : Json) :
    normalise r request = normalise q request := by
  have hitem : item r = item q := by
    funext document
    unfold item
    rw [funext (expand_congr h)]
  rw [normalise, normalise, hitem]

/-- So is a lenient one. -/
theorem LenientSort.normalise_congr (h : r.entity = q.entity) (request : Json) :
    normalise r request = normalise q request := by
  have hitem : item r = item q := by
    funext document
    unfold item
    rw [funext (StrictSort.expand_congr h)]
  rw [normalise, normalise, hitem]

/-- A page is read from the request, or made by a scope of the entity. -/
theorem OffsetPage.read_congr (h : r.entity = q.entity) (request : Json) (perPage : Int64) :
    read r request perPage = read q request perPage := by
  rw [read, read, h]

/-- The key of a page is a unique key of the entity. -/
theorem KeysetPage.normalise_congr (h : r.entity = q.entity) (request : Json) (perPage : Int64) :
    normalise r request perPage = normalise q request perPage := by
  rw [normalise, normalise, h]

/-! ### Steps -/

/-- The steps that hooks are made of keep the property: a criterion of a search, a key of an
ordering, and either kind of page. -/
structure Query.KeptBySteps (P : Query → Prop) : Prop where
  search : ∀ {q r : Query} {c : Criterion}, P q → q.search c = .ok r → P r
  sort : ∀ {q r : Query} {key : SortKey}, P q → q.sort key = .ok r → P r
  page : ∀ {q : Query} (p : OffsetPage), P q → P (q.page p)
  pageAfter : ∀ {q r : Query} {p : KeysetPage}, P q → q.pageAfter p = .ok r → P r

namespace Query.KeptBySteps

variable {P : Query → Prop}

/-- A criterion of a lenient search is one with wildcards, or it is passed over. -/
theorem searchLeniently (hP : KeptBySteps P) (h : P q) {c : Criterion}
    (hrun : q.searchLeniently c = .ok r) : P r := by
  unfold Query.searchLeniently at hrun
  split at hrun
  · exact hP.search h hrun
  · cases hrun
    exact h

/-- What the steps keep, a hook of this library keeps, whatever document it is run with. -/
theorem run (hP : KeptBySteps P) (h : P q) {b : Builtin} {document : Json}
    (hrun : b.run q document = .ok r) : P r := by
  cases b with
  | search =>
    obtain ⟨criteria, -, hall⟩ := Except.bind_ok hrun
    exact Except.foldlM_ok (fun _ _ _ _ hs hstep => hP.search hs hstep) h hall
  | lenientSearch =>
    obtain ⟨criteria, -, hall⟩ := Except.bind_ok hrun
    exact Except.foldlM_ok (fun _ _ _ _ hs hstep => hP.searchLeniently hs hstep) h hall
  | sort | lenientSort =>
    obtain ⟨keys, -, hall⟩ := Except.bind_ok hrun
    exact Except.foldlM_ok (fun _ _ _ _ hs hstep => hP.sort hs hstep) h hall
  | offsetPage =>
    obtain ⟨p, -, rfl⟩ := Except.map_ok hrun
    exact hP.page p h
  | keysetPage =>
    obtain ⟨p, -, hafter⟩ := Except.bind_ok hrun
    exact hP.pageAfter h hafter

end Query.KeptBySteps

/-- Every step keeps the entity. -/
theorem Query.keptBySteps_entity (entity : Entity) : KeptBySteps fun q => q.entity = entity where
  search h hstep := (entity_search hstep).trans h
  sort h hstep := (entity_sort hstep).trans h
  page _ h := h
  pageAfter h hstep := (entity_pageAfter hstep).trans h

namespace Builtin

variable {m : Type → Type} [Monad m]

/-- Normalising looks at the entity of a query and, for a page by offset, at its count. -/
theorem format_congr (b : Builtin) (h : r.entity = q.entity) (request : Json)
    {context : Context m} (hcount : b = .offsetPage → ∀ repository,
      context.repository = some repository → repository.count r = repository.count q) :
    b.format r request context = b.format q request context := by
  cases b with
  | search => rw [format, format, StrictSearch.normalise_congr h]
  | lenientSearch => rw [format, format, LenientSearch.normalise_congr h]
  | sort => rw [format, format, StrictSort.normalise_congr h]
  | lenientSort => rw [format, format, LenientSort.normalise_congr h]
  | keysetPage => rw [format, format, KeysetPage.normalise_congr h]
  -- the total is the one thing that is not read off the entity
  | offsetPage =>
    rw [format, format, OffsetPage.normalise, OffsetPage.normalise, OffsetPage.read_congr h]
    split
    · rfl
    · split
      · rename_i repository hrepository
        rw [OffsetPage.precompute, OffsetPage.precompute, hcount rfl repository hrepository]
      · rfl

/-! ### Applying -/

/-- Applying normalised parameters keeps the entity. -/
theorem entity_run {b : Builtin} {document : Json} (h : b.run q document = .ok r) :
    r.entity = q.entity :=
  (Query.keptBySteps_entity q.entity).run rfl h

/-- The hooks that leave the window of a query as it is. -/
def leavesWindow : Builtin → Bool
  | search | lenientSearch | sort | lenientSort => true
  | offsetPage | keysetPage => false

/-- A hook that leaves the window does the same to a query with another window. -/
theorem run_repaged {b : Builtin} (h : b.leavesWindow = true) (limit offset : Option Int64)
    (q : Query) (document : Json) :
    b.run (q.repaged limit offset) document =
      (b.run q document).map (·.repaged limit offset) := by
  cases b with
  | search =>
    rw [run, run]
    -- a document that is not read is refused in any window
    cases decoded (Criteria.decode document) with
    | error e => rfl
    | ok criteria => exact Query.searchAll_repaged limit offset q criteria
  | lenientSearch =>
    rw [run, run]
    cases decoded (Criteria.decode document) with
    | error e => rfl
    | ok criteria => exact Query.searchAllLeniently_repaged limit offset q criteria
  | sort | lenientSort =>
    rw [run, run]
    cases decoded (SortKeys.decode document) with
    | error e => rfl
    | ok keys => exact Query.sortAll_repaged limit offset q keys
  | offsetPage | keysetPage => cases h

/-- Queries that differ in their windows at most stay so under every hook. -/
theorem run_sameRows (h : q.SameRows r) (b : Builtin) (document : Json) :
    Agree Query.SameRows (b.run q document) (b.run r document) := by
  cases b with
  | offsetPage =>
    refine (Agree.of_eq rfl).map ?_
    rintro p _ rfl
    obtain ⟨limit, offset, rfl⟩ := h
    exact Query.sameRows_refl (q.page p)
  | keysetPage =>
    refine (Agree.of_eq rfl).bind ?_
    rintro p _ rfl
    exact Query.pageAfter_sameRows h p
  | _ =>
    obtain ⟨limit, offset, rfl⟩ := h
    -- what leaves the window does the same to both, and the windows stay apart
    rw [run_repaged rfl]
    exact Agree.map_right (fun s => ⟨limit, offset, rfl⟩) _

/-- A page by offset and a hook that leaves the window can be applied in either order. -/
theorem run_offsetPage_comm {b : Builtin} (h : b.leavesWindow = true) (q : Query)
    (page document : Json) :
    Agree Eq (offsetPage.run q page >>= fun r => b.run r document)
      (b.run q document >>= fun r => offsetPage.run r page) := by
  have hpage (r : Query) :
      offsetPage.run r page = (decoded (OffsetPage.decode page)).map r.page := rfl
  simp only [hpage]
  -- either of the two documents may fail to decode, and then neither order gives a query
  cases decoded (OffsetPage.decode page) with
  | error e =>
    cases b.run q document with
    | error e' => exact .error e e'
    | ok r => exact .error e e
  | ok p =>
    show Agree Eq (b.run (q.repaged _ _) document) (b.run q document >>= fun r => .ok (r.page p))
    rw [run_repaged h]
    cases b.run q document with
    | error e => exact .error e e
    | ok r => exact .ok rfl

end Builtin

end Listing
