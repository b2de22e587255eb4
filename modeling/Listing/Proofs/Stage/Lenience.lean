import Listing.Proofs.Search.Wildcards
import Listing.Proofs.Stage.Wire

namespace Listing

/-!
# Lenient hooks

What a strict hook makes of a request, the lenient hook of the same kind makes of it too; it only
finds something in more requests.

* `Except.mapM_wrapped`, `Except.mapM_filterMap` — steps that give what others give, wrapped, and
  with nothing left out;
* `LenientSearch.normalise_of_strict`, `LenientSort.normalise_of_strict` — requests that the strict
  hooks accept;
* `Builtin.lenient_extends_strict` — requests and parameters of either kind.
-/

/-- Steps that give, wrapped, whatever others give, give the whole list of it. -/
theorem Except.mapM_wrapped {ε α β γ : Type} {f : α → Except ε β} {g : α → Except ε γ}
    (wrap : β → γ) (h : ∀ x y, f x = .ok y → g x = .ok (wrap y)) {xs : List α} {ys : List β}
    (hrun : xs.mapM f = .ok ys) : xs.mapM g = .ok (ys.map wrap) := by
  induction xs generalizing ys with
  | nil =>
    cases hrun
    rfl
  | cons x xs ih =>
    rw [List.mapM_cons] at hrun
    obtain ⟨y, hy, hmore⟩ := bind_ok hrun
    obtain ⟨rest, hrest, hall⟩ := bind_ok hmore
    cases hall
    rw [List.mapM_cons, h x y hy, ih hrest]
    rfl

/-- Where nothing is left out, the results that are there are all results. -/
theorem Except.mapM_filterMap {ε α β : Type} {f : α → Except ε β} {g : α → Except ε (Option β)}
    (h : ∀ x y, f x = .ok y → g x = .ok (some y)) {xs : List α} {ys : List β}
    (hrun : xs.mapM f = .ok ys) :
    (xs.mapM g >>= fun found => .ok (found.filterMap id)) = .ok ys := by
  rw [mapM_wrapped some h hrun]
  show Except.ok ((ys.map some).filterMap id) = _
  simp

/-! ### Searches -/

namespace StrictSearch

variable {hook : String} {fields : Dict Json}

/-- An operator that is read has a known name. -/
theorem operator?_of_operator {op : SearchOperator} (h : operator hook fields = .ok op) :
    LenientSearch.operator? fields = some op := by
  unfold operator at h
  unfold LenientSearch.operator?
  split at h
  · cases h
  · rename_i name hname
    rw [hname]
    show SearchOperator.ofName? name = some op
    unfold SearchOperator.parse at h
    split at h
    · rename_i op' hop
      cases h
      exact hop
    · cases h
  · cases h

/-- A term that is read is there. -/
theorem term_ok {t : Term} (h : term hook fields = .ok t) :
    ∃ value, Dict.get? fields "search_term" = some value ∧ Request.term value = .ok t := by
  unfold term at h
  split at h
  · cases h
  · rename_i value hvalue
    exact ⟨value, hvalue, h⟩

end StrictSearch

namespace LenientSearch

variable {q : Query}

/-- An object that is a criterion for a strict search is the same one for a lenient search. -/
theorem entry_of_strict {hook name : String} {fields : Dict Json} {c : Criterion}
    (h : StrictSearch.entry hook name fields = .ok c) : entry name fields = .ok (some c) := by
  obtain ⟨f, hfield, h⟩ := Except.bind_ok h
  obtain ⟨path, hpath, h⟩ := Except.bind_ok h
  obtain ⟨op, hoperator, h⟩ := Except.bind_ok h
  obtain ⟨t, hterm, h⟩ := Except.bind_ok h
  obtain ⟨combine, hcombine, h⟩ := Except.bind_ok h
  obtain ⟨_, -, h⟩ := Except.bind_ok h
  cases h
  obtain ⟨value, hvalue, hread⟩ := StrictSearch.term_ok hterm
  -- nothing leaves the object out, so it is read in the other order to the same end
  rw [entry, StrictSearch.operator?_of_operator hoperator, hvalue,
    Except.mapError_ok hcombine]
  simp only
  rw [hfield, hpath, hread]
  rfl

/-- An entry that a strict search accepts is kept by a lenient one. -/
theorem normaliseEntry_of_strict (x : String × Json) (y : String × Criterion)
    (h : StrictSearch.normaliseEntry q x = .ok y) : normaliseEntry q x = .ok (some y) := by
  obtain ⟨name, value⟩ := x
  rw [StrictSearch.normaliseEntry] at h
  rw [normaliseEntry]
  cases value with
  | obj fields =>
    obtain ⟨c, hc, hy⟩ := Except.bind_ok h
    cases hy
    simp only
    rw [entry_of_strict hc]
    rfl
  | _ =>
    -- what is no object is the value of a scope, which both look up
    obtain ⟨c, hc, hy⟩ := Except.bind_ok h
    cases hy
    simp only
    rw [hc]
    rfl

/-- The criteria of a strict search are those of a lenient one. -/
theorem normalise_of_strict {request : Json} {criteria : Criteria}
    (h : StrictSearch.normalise q request = .ok criteria) :
    normalise q request = .ok criteria := by
  obtain ⟨entries, hobject, h⟩ := Except.bind_ok h
  have hentries : Request.object "legacy_search" request = .ok entries := by
    rw [Request.object_ok hobject]
    rfl
  rw [normalise, hentries]
  exact Except.mapM_filterMap normaliseEntry_of_strict h

end LenientSearch

/-! ### Orderings -/

namespace StrictSort

variable {fields : Dict Json}

/-- The field of an entry is one of its document. -/
theorem field_ok {f : Field} (h : field fields = .ok f) :
    ∃ value, Dict.get? fields "field" = some value ∧ Field.parse value = .ok f := by
  unfold field at h
  split at h
  · rename_i value hvalue
    exact ⟨value, hvalue, h⟩
  · cases h

/-- A direction that is read has a known name. -/
theorem direction_ok {d : Direction} (h : direction fields = .ok d) :
    ((Dict.get? fields "order").bind Json.string?).bind Direction.ofName? = some d := by
  unfold direction at h
  split at h
  · cases h
  · cases h
  · rename_i name hname
    rw [hname]
    show Direction.ofName? name = some d
    unfold Direction.parse at h
    split at h
    · rename_i d' hd
      cases h
      exact hd
    · cases h
  · cases h

/-- Where case may be ignored or not, a null says as little as nothing. -/
theorem ignoreCase_ok {b : Bool} (h : ignoreCase fields = .ok b) :
    ((Dict.get? fields "ci").bind Json.bool?).getD false = b := by
  unfold ignoreCase at h
  split at h
  · rename_i hnone
    cases h
    rw [hnone]
    rfl
  · rename_i hnull
    cases h
    rw [hnull]
    rfl
  · rename_i b' hb
    cases h
    rw [hb]
    rfl
  · cases h

end StrictSort

namespace LenientSort

variable {q : Query}

/-- An object that is a key for a strict ordering is the same one for a lenient ordering. -/
theorem written_of_strict {fields : Dict Json} {key : SortKey}
    (h : StrictSort.written fields = .ok key) : written fields = .ok (some key) := by
  obtain ⟨f, hfield, h⟩ := Except.bind_ok h
  obtain ⟨path, hpath, h⟩ := Except.bind_ok h
  obtain ⟨d, hdirection, h⟩ := Except.bind_ok h
  obtain ⟨ignoreCase, hcase, h⟩ := Except.bind_ok h
  cases h
  obtain ⟨value, hvalue, hread⟩ := StrictSort.field_ok hfield
  rw [written, hvalue]
  simp only
  rw [hpath, hread, StrictSort.direction_ok hdirection, StrictSort.ignoreCase_ok hcase]
  rfl

/-- An item that a strict ordering accepts is kept by a lenient one. -/
theorem item_of_strict (document : Json) (key : SortKey)
    (h : StrictSort.item q document = .ok key) : item q document = .ok (some key) := by
  obtain ⟨fields, hobject, h⟩ := Except.bind_ok h
  obtain ⟨found, hfound, h⟩ := Except.bind_ok h
  rw [Request.object_ok hobject]
  show StrictSort.expand q fields >>= _ = _
  rw [hfound]
  cases found with
  | some key' =>
    cases h
    rfl
  | none => exact written_of_strict h

/-- The keys of a strict ordering are those of a lenient one. -/
theorem normalise_of_strict {request : Json} {keys : List SortKey}
    (h : StrictSort.normalise q request = .ok keys) : normalise q request = .ok keys := by
  obtain ⟨documents, hitems, h⟩ := Except.bind_ok h
  have hdocuments : items request = .ok documents := by
    cases request with
    | arr _ | obj _ => exact hitems
    | _ => cases hitems
  rw [normalise, hdocuments]
  exact Except.mapM_filterMap item_of_strict h

end LenientSort

/-! ### Hooks -/

namespace Builtin

/-- **Lenient hooks extend strict ones.** A request that `Builtin.search` or `Builtin.sort` accepts
is one for `Builtin.lenientSearch` or `Builtin.lenientSort`, with the same parameters.  Of the keys
of an ordering both make the same.  Of criteria that the strict search accepts, without an empty
pattern, the lenient one makes the same statements (`Query.SameText`) with the same terms, but for
the wildcards around every pattern (`Wildcarded`). -/
theorem lenient_extends_strict (q : Query) :
    (∀ request criteria, StrictSearch.normalise q request = .ok criteria →
      LenientSearch.normalise q request = .ok criteria ∧
      ∀ (m : Type → Type) [Monad m] (context : Context m),
        lenientSearch.format q request context = search.format q request context) ∧
    (∀ request keys, StrictSort.normalise q request = .ok keys →
      LenientSort.normalise q request = .ok keys ∧
      ∀ (m : Type → Type) [Monad m] (context : Context m),
        lenientSort.format q request context = sort.format q request context) ∧
    (∀ keys, lenientSort.apply q keys = sort.apply q keys) ∧
    ∀ (criteria : Criteria) (r : Query), search.apply q criteria = .ok r →
      (∀ entry ∈ criteria, entry.2.isEmptyPattern = false) →
      ∃ s, lenientSearch.apply q criteria = .ok s ∧
        search.apply q criteria.withWildcards = .ok s ∧ r.SameText s ∧
        (∃ order : List String, order.Perm criteria.patterns ∧ Wildcarded order r.terms s.terms) ∧
        (criteria.patterns = [] → s = r) := by
  refine ⟨fun request criteria h => ?_, fun request keys h => ?_, fun _ => rfl,
    fun criteria r hrun hpattern => Query.searchAllLeniently_ok hrun hpattern⟩
  · have hlenient := LenientSearch.normalise_of_strict h
    exact ⟨hlenient, fun m _ context => by rw [format, format, h, hlenient]⟩
  · have hlenient := LenientSort.normalise_of_strict h
    exact ⟨hlenient, fun m _ context => by rw [format, format, h, hlenient]⟩

/-- Pens that cost more than one. -/
def pens : Criteria :=
  [("name", ⟨.column "name", [], .like, .text "pen", .and⟩),
    ("price", ⟨.column "price", [], .gt, .int 1, .and⟩)]

/-- A request for them; a null says nothing of the combination. -/
def pensRequest : Json :=
  .obj [("name", .obj [("search_type", .str "like"), ("search_term", .str "pen")]),
    ("price", .obj [("search_type", .str "gt"), ("search_term", .num (.int 1)),
      ("search_expr", .null)])]

/-- Names in ascending order; a null says nothing of case. -/
def byName : Json := .obj [("field", .str "name"), ("order", .str "asc"), ("ci", .null)]

/-- The lenient search for pens binds the pattern with wildcards, and the number as it is. -/
theorem lenient_extends_strict_pens :
    LenientSearch.normalise .products pensRequest = .ok pens ∧
    LenientSort.normalise .products byName = .ok [⟨.column "name", [], some .asc, false⟩] ∧
    ∃ r s, search.apply .products pens = .ok r ∧ lenientSearch.apply .products pens = .ok s ∧
      r.SameText s ∧ r.terms = [.text "pen", .int 1] ∧ s.terms = [.text "%pen%", .int 1] := by
  obtain ⟨hsearch, hsort, -, happly⟩ := lenient_extends_strict .products
  refine ⟨(hsearch pensRequest pens rfl).1, (hsort byName _ rfl).1, ?_⟩
  obtain ⟨s, hs, -, htext, -, -⟩ := happly pens _ rfl (by decide)
  cases hs
  exact ⟨_, _, rfl, rfl, htext, rfl, rfl⟩

end Builtin

end Listing
