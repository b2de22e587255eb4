import Listing.Proofs.Page.Start
import Listing.Proofs.Pipeline.Untouched
import Listing.Proofs.Search.Normal

namespace Listing

/-!
# Pages read back

The page of a request is read back from its parameters.  Before a call it is what the request says,
which may be any two integers, and the rows before it may be counted wrongly or not at all.  After a
call it is what the hook of its stage wrote; whichever hook of this library that was, a page that is
read back starts where its window does.

* `Params.page?_eq_some_iff`, `Params.exists_page?` — what is read back, which may be anything;
* `OffsetPage.exists_member_of_decode` — a document without an integer is read as no page;
* `Builtin.ReadsBack`, `Builtin.yields_readsBack` — what is read back once a hook has normalised;
* `Pipeline.ReadsAs`, `Pipeline.yields_page?` — what is read back after a call;
* `Pipeline.read_back_well_placed` — which pages that are read back start where they should.
-/

/-! ### Before a call -/

namespace Params

variable {params : Params} {p : OffsetPage}

/-- A page that is read back is decoded from the parameters of the stage. -/
theorem page?_eq_some_iff : params.page? = some p ↔
    ∃ document, params.get? "paginate" = some document ∧ OffsetPage.decode document = .ok p := by
  rw [page?, Option.bind_eq_some_iff]
  refine exists_congr fun document => and_congr_right fun _ => ?_
  cases OffsetPage.decode document with
  | ok found => simp [Except.toOption]
  | error e => simp [Except.toOption]

/-- Null is read as no page, whether it counts as parameters or not. -/
theorem page?_eq (params : Params) :
    params.page? = (Dict.get? params.entries "paginate").bind fun value =>
      (OffsetPage.decode value).toOption := by
  rw [page?, get?]
  cases Dict.get? params.entries "paginate" with
  | none => rfl
  | some value =>
    cases value <;> rfl

/-- Any two integers are read back from a request that gives them. -/
theorem exists_page? (page perPage : Int64) :
    ∃ params : Params, params.page? = some ⟨page, perPage, 0, 0⟩ :=
  ⟨⟨[("paginate", .obj [("page", .int page), ("per_page", .int perPage)])]⟩, rfl⟩

end Params

/-! ### Documents of hooks -/

/-- The values of the fields of an object, or the items of a list. -/
def Json.members : Json → List Json
  | .obj fields => fields.map Prod.snd
  | .arr items => items
  | _ => []

/-- The number of a page that is decoded is an integer in its document. -/
theorem OffsetPage.exists_member_of_decode {document : Json} {p : OffsetPage}
    (h : decode document = .ok p) : ∃ value ∈ document.members, value.asInt64 = .ok p.page := by
  cases document with
  | obj fields =>
    obtain ⟨-, -, h⟩ := Except.bind_ok h
    obtain ⟨page, hpage, h⟩ := Except.bind_ok h
    obtain ⟨perPage, -, h⟩ := Except.bind_ok h
    obtain ⟨totalCount, -, h⟩ := Except.bind_ok h
    obtain ⟨maxPage, -, h⟩ := Except.bind_ok h
    cases h
    -- the page is a field that must be there
    rw [Json.Record.required] at hpage
    split at hpage
    · rename_i value hvalue
      exact ⟨value, List.mem_map_of_mem (Dict.mem_of_get? hvalue), hpage⟩
    · cases hpage
  | arr items =>
    obtain ⟨page, hpage, h⟩ := Except.bind_ok h
    obtain ⟨perPage, -, h⟩ := Except.bind_ok h
    obtain ⟨totalCount, -, h⟩ := Except.bind_ok h
    obtain ⟨maxPage, -, h⟩ := Except.bind_ok h
    obtain ⟨-, -, h⟩ := Except.bind_ok h
    cases h
    -- in a list it is the first item
    rw [Json.Record.item] at hpage
    split at hpage
    · rename_i value hvalue
      exact ⟨value, List.mem_of_getElem? hvalue, hpage⟩
    · cases hpage
  | null | bool b | num n | str s => cases h

/-- A document whose members are all objects is read as no page. -/
theorem OffsetPage.toOption_decode_of_objects {document : Json}
    (h : ∀ value ∈ document.members, ∃ fields, value = .obj fields) :
    (decode document).toOption = none := by
  cases hdecode : decode document with
  | error e => rfl
  | ok p =>
    obtain ⟨value, hvalue, hinteger⟩ := exists_member_of_decode hdecode
    obtain ⟨fields, rfl⟩ := h value hvalue
    cases hinteger

/-- The criteria of a search are written as records. -/
theorem Criteria.members_encode (criteria : Criteria) :
    ∀ value ∈ (encode criteria).members, ∃ fields, value = .obj fields := by
  intro value hvalue
  obtain ⟨entry, hentry, rfl⟩ := List.mem_map.mp hvalue
  obtain ⟨c, -, hencode⟩ := exists_of_mem_encode hentry
  exact ⟨_, hencode⟩

/-- So are the keys of an ordering. -/
theorem SortKeys.members_encode (keys : List SortKey) :
    ∀ value ∈ (encode keys).members, ∃ fields, value = .obj fields := by
  intro value hvalue
  obtain ⟨key, -, rfl⟩ := List.mem_map.mp hvalue
  exact ⟨_, rfl⟩

/-- A page that is normalised has the totals of a count. -/
theorem OffsetPage.yields_normalise {m : Type → Type} [Monad m] [LawfulMonad m] (q : Query)
    (request : Json) (context : Context m) :
    Yields (fun p => ∃ asked total, p = OffsetPage.withTotal asked total)
      (normalise q request context) := by
  unfold normalise
  split
  · exact yields_throw _
  · rename_i asked _
    split
    · exact yields_bind (yields_trivial _) fun total _ => yields_pure ⟨asked, total, rfl⟩
    · exact yields_throw _

/-- What one does not raise is one at least. -/
theorem one_le_toInt_of_max {n : Int64} (h : max n 1 = n) : 1 ≤ n.toInt := by
  have hone : (1 : Int64).toInt = 1 := rfl
  rw [← h, toInt_max]
  omega

namespace Builtin

/-- What is read back where the hook has normalised: a page that starts where its window does if the
hook is one of pages, and no page otherwise. -/
def ReadsBack (b : Builtin) (page? : Option OffsetPage) : Prop :=
  match b with
  | offsetPage | keysetPage =>
    ∃ p, page? = some p ∧ 1 ≤ p.page.toInt ∧ 1 ≤ p.perPage.toInt ∧ p.WellPlaced
  | search | lenientSearch | sort | lenientSort => page? = none

/-- Page and page size of at least 1 are all that it takes. -/
theorem readsBack_page {b : Builtin} (hb : b = offsetPage ∨ b = keysetPage) {p : OffsetPage}
    (hpage : 1 ≤ p.page.toInt) (hsize : 1 ≤ p.perPage.toInt) : b.ReadsBack (some p) := by
  have hplaced : p.WellPlaced := OffsetPage.wellPlaced_iff.mpr (.inl ⟨hpage, hsize⟩)
  rcases hb with rfl | rfl <;> exact ⟨p, rfl, hpage, hsize, hplaced⟩

variable {m : Type → Type} [Monad m] [LawfulMonad m]

/-- What a hook of this library writes is read back as a page that starts where its window does, or
as none. -/
theorem yields_readsBack (b : Builtin) (q : Query) (request : Json) (context : Context m) :
    Yields (fun document => b.ReadsBack (OffsetPage.decode document).toOption)
      (b.format q request context) := by
  cases b with
  | search | lenientSearch =>
    refine yields_liftOutcome ?_
    intro document hdocument
    obtain ⟨criteria, -, rfl⟩ := Except.map_ok hdocument
    exact OffsetPage.toOption_decode_of_objects (Criteria.members_encode criteria)
  | sort | lenientSort =>
    refine yields_liftOutcome ?_
    intro document hdocument
    obtain ⟨keys, -, rfl⟩ := Except.map_ok hdocument
    exact OffsetPage.toOption_decode_of_objects (SortKeys.members_encode keys)
  | offsetPage =>
    rw [format, map_eq_pure_bind]
    refine yields_bind (OffsetPage.yields_normalise q request context) ?_
    rintro _ ⟨asked, total, rfl⟩
    have hcounted := asked.counted_withTotal total
    have hpage : 1 ≤ (asked.withTotal total).page.toInt := by
      rw [asked.toInt_page_withTotal total]
      omega
    exact yields_pure (readsBack_page (.inl rfl) hpage hcounted.size)
  | keysetPage =>
    refine yields_liftOutcome ?_
    intro document hdocument
    obtain ⟨page, hpage, rfl⟩ := Except.map_ok hdocument
    obtain ⟨-, hsize, hnumber⟩ := KeysetPage.normalise_ok hpage
    -- the last key and its column are no fields of a page by offset
    have hread : (OffsetPage.decode page.encode).toOption =
        some ⟨page.page, page.perPage, 0, 0⟩ := rfl
    rw [hread]
    exact readsBack_page (.inr rfl) (one_le_toInt_of_max hnumber) (one_le_toInt_of_max hsize)

end Builtin

/-! ### After a call -/

namespace Pipeline

variable {m : Type → Type} [Monad m] [LawfulMonad m] {custom : String → Handler m}
  {config : Config} {options : Options m} {q : Query} {params : Params}

/-- Where a hook of this library handles the task, the document is read back as one of that hook. -/
def ReadsAs (task : Task) (document : Json) : Prop :=
  ∀ b, task.hook = .builtin b → b.ReadsBack (OffsetPage.decode document).toOption

/-- Whatever a task is normalised to reads back as parameters of its hook. -/
theorem yields_readsAs (q : Query) (task : Task) (context : Context m) :
    Yields (ReadsAs task) (task.hook.format custom q task.request context) := by
  cases hook : task.hook with
  | builtin b =>
    refine yields_mono ?_ (b.yields_readsBack q task.request context)
    intro document hdocument b' hb'
    cases hook.symm.trans hb'
    exact hdocument
  | custom label =>
    refine yields_mono ?_ (yields_trivial _)
    intro document _ b hb
    cases hook.symm.trans hb

/-- After a call whose page stage has a hook of this library, what is read back is what the hook
wrote: nothing else of the call writes there. -/
theorem yields_page? {b : Builtin} (hstage : "paginate" ∈ stagesOf config options)
    (hrequest : params.contains "paginate" = true)
    (hhook : resolve "paginate" options q.entity config = .ok (.builtin b)) :
    Yields (fun outcome => b.ReadsBack outcome.2.page?) (run custom config options q params) := by
  refine yields_mono ?_ (yields_advances fun r task =>
    yields_readsAs r task (contextOf config options))
  rintro outcome ⟨ts, documents, hts, hadvances, hparams⟩
  obtain ⟨request, hget⟩ := Option.isSome_iff_exists.mp hrequest
  obtain ⟨hook, hresolve, _, _, _, _, document, -, -, -, hread, hfound⟩ :=
    (framed_of_advances hts hadvances hparams).formatted "paginate" hstage request hget
  rw [hhook] at hresolve
  cases hresolve
  rw [Params.page?_eq, hfound]
  exact hread b rfl

/-- **Pages read back from parameters.** Any two integers may be read back as a page before a call
(`Params.page?`).  Whatever they are, `Builtin.offsetPage` makes the window for both raised to at
least 1, and it starts where it should.  The rows before the page as it was read
(`OffsetPage.offset`) are as many exactly if its numbers are at least 1, if it is the first page, or
if it comes before that one with no rows on a page (`OffsetPage.WellPlaced`); else their number is
another one, and for the least integer a step towards it overflows (`OffsetPage.checkedOffset?`).
After `Pipeline.run` with a hook of this library for the page stage, a page that is read back always
starts where it should (`Builtin.ReadsBack`). -/
theorem read_back_well_placed (custom : String → Handler m) (config : Config) (options : Options m)
    (q : Query) (params : Params) :
    (∀ page perPage, ∃ asked : Params, asked.page? = some ⟨page, perPage, 0, 0⟩) ∧
    (∀ p, params.page? = some p →
      (p.WellPlaced ↔ 1 ≤ p.page.toInt ∧ 1 ≤ p.perPage.toInt ∨ p.page.toInt = 1 ∨
        p.perPage.toInt = 0 ∧ Int64.minValue.toInt < p.page.toInt ∧ p.page.toInt < 1) ∧
      (p.checkedOffset? = none ↔ p.page = Int64.minValue) ∧
      (p.page ≠ Int64.minValue → p.checkedOffset? = some p.offset ∧
        p.offset.toInt = max Int64.minValue.toInt
          (min Int64.maxValue.toInt (p.perPage.toInt * (p.page.toInt - 1)))) ∧
      (OffsetPage.request p.page p.perPage).WellPlaced ∧
      ∃ document, params.get? "paginate" = some document ∧ ∀ r : Query,
        Builtin.offsetPage.run r document = .ok (r.page p) ∧
          (r.page p).offset = some (OffsetPage.request p.page p.perPage).offset) ∧
    (∀ b, "paginate" ∈ stagesOf config options → params.contains "paginate" = true →
      resolve "paginate" options q.entity config = .ok (.builtin b) →
      Yields (fun outcome => b.ReadsBack outcome.2.page?)
        (run custom config options q params)) := by
  refine ⟨Params.exists_page?, ?_, fun b hstage hrequest hhook =>
    yields_page? hstage hrequest hhook⟩
  intro p hread
  obtain ⟨document, hget, hdecode⟩ := Params.page?_eq_some_iff.mp hread
  refine ⟨OffsetPage.wellPlaced_iff, OffsetPage.checkedOffset?_eq_none_iff,
    fun hne => ⟨OffsetPage.checkedOffset?_eq hne, OffsetPage.toInt_offset_eq hne⟩,
    OffsetPage.wellPlaced_request p.page p.perPage, document, hget, fun r => ⟨?_, rfl⟩⟩
  rw [Builtin.run, hdecode]
  rfl

/-- A call of a repository that counts eight rows for every query. -/
def countingEight : Options Id := Options.none.withRepository ⟨fun _ => pure 8, fun _ => pure []⟩

/-- Five rows of the page before the first one. -/
def pageZero : Params := ⟨[("paginate", .obj [("per_page", .int 5), ("page", .int 0)])]⟩

/-- Read back before the call, it has five rows less than none before it; after the call it is the
first page, with none. -/
theorem read_back_well_placed_pageZero :
    (∃ p, pageZero.page? = some p ∧ p.offset = -5 ∧ ¬ p.WellPlaced) ∧
    "paginate" ∈ stagesOf .standard countingEight ∧ pageZero.contains "paginate" = true ∧
    resolve "paginate" countingEight tenantProducts.entity .standard =
      .ok (.builtin .offsetPage) ∧
    ∃ r normal p, run Handler.unfinished .standard countingEight tenantProducts pageZero =
        pure (r, normal) ∧
      normal.page? = some p ∧ p.WellPlaced ∧ p = ⟨1, 5, 8, 2⟩ ∧ p.offset = 0 := by
  obtain ⟨-, hbefore, hafter⟩ := read_back_well_placed Handler.unfinished .standard countingEight
    tenantProducts pageZero
  have hread : pageZero.page? = some ⟨0, 5, 0, 0⟩ := rfl
  obtain ⟨hplaced, -⟩ := hbefore _ hread
  have hstage : "paginate" ∈ stagesOf .standard countingEight := by decide
  have hrun : run Handler.unfinished .standard countingEight tenantProducts pageZero =
      pure (_, ⟨[("paginate", (OffsetPage.mk 1 5 8 2).encode)]⟩) := rfl
  obtain ⟨p, hp, -, -, hwell⟩ := of_ensures_id (hafter .offsetPage hstage rfl rfl) _ hrun
  cases hp
  refine ⟨⟨_, hread, by decide, ?_⟩, hstage, rfl, rfl, _, _, _, hrun, rfl, hwell, rfl, by decide⟩
  rw [hplaced]
  decide

/-- Ten rows of the page with the least number. -/
def pageLeast : Params :=
  ⟨[("paginate", .obj [("page", .int Int64.minValue), ("per_page", .int 10)])]⟩

/-- **The least page overflows.** Read back, it has no `OffsetPage.checkedOffset?`, though its
window starts with the first row; a step that wraps around comes to the greatest number of rows
instead of none. -/
theorem pageLeast_overflows :
    ∃ p, pageLeast.page? = some p ∧ p.checkedOffset? = none ∧ p.offset = Int64.maxValue ∧
      ¬ p.WellPlaced ∧ ∀ r : Query, (r.page p).offset = some 0 := by
  have hnone : (OffsetPage.mk Int64.minValue 10 0 0).checkedOffset? = none := by decide
  refine ⟨⟨Int64.minValue, 10, 0, 0⟩, rfl, hnone, by decide, ?_, fun r => rfl⟩
  intro hplaced
  rw [hplaced.inRange] at hnone
  cases hnone

end Pipeline

end Listing
