import Listing.Proofs.Search.Blank
import Listing.Proofs.Stage.Wire
import Listing.Term.Bind

namespace Listing

/-!
# Scalar terms

A list of terms cannot be bound: it has to be taken apart when its condition is made.  A search does
so with the list itself, but not with lists inside it, and a page by key takes its key as it is.
So whether a query binds scalars is decided by what stands in the lists of its parameters.

* `Term.bind_eq_listTerm_iff` — what fails to bind as a list is one;
* `Query.Scalar` — queries that bind no list;
* `Criterion.Flat`, `KeysetPage.Flat`, `Builtin.Flat` — parameters that lead to no list;
* `Query.scalar_search`, `Query.scalar_searchLeniently`, `Query.scalar_pageAfter` — what each step
  of a hook comes to;
* `Builtin.scalar_run` — a hook keeps a query free of lists exactly if its parameters are flat.
-/

open Sql (Condition Operand)

/-! ### Binding -/

namespace Term

/-- An integer of some width fails for its size alone. -/
theorem bindWidth_ne_listTerm (width : Nat) (n : Int64) :
    bindWidth width n ≠ .error .listTerm := by
  unfold bindWidth
  simp only
  split
  · exact nofun
  · split <;> exact nofun

/-- An integer is never taken for a list. -/
theorem bindInt_ne_listTerm (n : Int64) (type : SqlType) : bindInt n type ≠ .error .listTerm := by
  cases type <;> simp [bindInt, bindWidth_ne_listTerm, SqlType.isText]

/-- Nor is a float. -/
theorem bindFloat_ne_listTerm (x : Number.Binary64) (type : SqlType) :
    bindFloat x type ≠ .error .listTerm := by
  unfold bindFloat
  split
  -- a whole float binds to an integer type like the integer
  all_goals try split
  all_goals first
    | exact bindInt_ne_listTerm _ _
    | exact nofun

/-- Nor is a text. -/
theorem bindText_ne_listTerm (s : String) (type : SqlType) :
    bindText s type ≠ .error .listTerm := by
  unfold bindText
  simp only
  split
  -- a text that spells a number binds like the number
  all_goals try split
  all_goals first
    | exact bindInt_ne_listTerm _ _
    | exact bindFloat_ne_listTerm _ _
    | exact nofun

/-- What fails to bind because it is a list is a list, whatever the type. -/
theorem bind_eq_listTerm_iff (type : SqlType) (t : Term) :
    t.bind type = .error .listTerm ↔ t.isList = true := by
  -- a list is told apart before the type is looked at, and nothing else has this error
  cases t with
  | null => simp [bind, isList]
  | bool b =>
    rw [bind]
    split <;> simp [isList]
  | int n => simp [bind, isList, Except.map_eq_error_iff, bindInt_ne_listTerm]
  | float x => simp [bind, isList, Except.map_eq_error_iff, bindFloat_ne_listTerm]
  | text s => simp [bind, isList, Except.map_eq_error_iff, bindText_ne_listTerm]
  | list items => simp [bind, isList]

/-! ### Lists in parameters -/

variable {t : Term}

/-- No item of the term, if it is a list, is a list again. -/
def Flat (t : Term) : Prop := ∀ items, t = .list items → ∀ item ∈ items, item.isList = false

/-- A list is flat if no item of it is a list. -/
theorem flat_list {items : List Term} :
    (list items).Flat ↔ ∀ item ∈ items, item.isList = false := by simp [Flat]

/-- What is no list is flat. -/
theorem flat_of_isList (h : t.isList = false) : t.Flat := by
  rintro items rfl
  cases h

/-- A blank term is flat, because a blank list is empty. -/
theorem flat_of_isBlank (h : t.isBlank = true) : t.Flat := by
  rintro items rfl item hitem
  rw [isBlank, List.isEmpty_iff] at h
  rw [h] at hitem
  cases hitem

end Term

/-- A criterion whose term has the shape that its operator needs has no list in a list. -/
def Criterion.Flat (c : Criterion) : Prop := c.check = .ok () → c.term.Flat

/-- The last key seen is no list, unless it is blank. -/
def KeysetPage.Flat (p : KeysetPage) : Prop :=
  p.lastSeenKey.isBlank = false → p.lastSeenKey.isList = false

/-- Wildcards go around texts only, and a text has no list in it. -/
theorem Criterion.flat_withWildcards (c : Criterion) : c.withWildcards.Flat ↔ c.Flat := by
  have htext {d : Criterion} {s : String} (h : d.term = .text s) : d.Flat := by
    intro _
    rw [h]
    exact Term.flat_of_isList rfl
  unfold withWildcards
  split
  · rename_i pattern _ hterm
    exact ⟨fun _ => htext hterm, fun _ => htext rfl⟩
  · rename_i pattern _ hterm
    exact ⟨fun _ => htext hterm, fun _ => htext rfl⟩
  · exact Iff.rfl

/-! ### Terms of conditions -/

namespace Sql.Condition

/-- A membership binds the items of the list. -/
theorem terms_isIn (lhs : Operand) (values : List Term) : (isIn lhs values).terms = values := by
  unfold isIn
  split
  · rename_i h
    rw [List.isEmpty_iff.mp h]
    rfl
  · rfl

/-- So does its negation. -/
theorem terms_isNotIn (lhs : Operand) (values : List Term) :
    (isNotIn lhs values).terms = values := by
  unfold isNotIn
  split
  · rename_i h
    rw [List.isEmpty_iff.mp h]
    rfl
  · rfl

end Sql.Condition

/-- The condition of a term of the right shape binds scalars exactly if no list of the term has a
list in it: a list is taken apart once. -/
theorem SearchOperator.scalar_condition {lhs : Operand} {operator : SearchOperator} {term : Term}
    {c : Condition} (hfits : operator.fits term = true)
    (h : operator.condition lhs term = .ok c) :
    (∀ t ∈ c.terms, t.isList = false) ↔ term.Flat := by
  -- a list is bound item by item, two bounds as they are, a truth value not at all
  cases operator with
  | isIn =>
    cases term with
    | list items =>
      cases h
      rw [Condition.terms_isIn, Term.flat_list]
    | _ => cases hfits
  | notIn =>
    cases term with
    | list items =>
      cases h
      rw [Condition.terms_isNotIn, Term.flat_list]
    | _ => cases hfits
  | between =>
    cases term with
    | list items =>
      obtain ⟨low, high, rfl⟩ := List.length_eq_two.mp (by simpa [fits] using hfits)
      cases h
      rw [Term.flat_list]
      rfl
    | _ => cases hfits
  | isNull =>
    have hscalar : term.isList = false := by
      cases term with
      | list items => cases hfits
      | _ => rfl
    simp only [condition] at h
    split at h
    · cases h
      exact ⟨fun _ => Term.flat_of_isList hscalar, fun _ t ht => absurd ht List.not_mem_nil⟩
    · cases h
  | like | ilike | eq | gt | lt | gteq | lteq =>
    have hscalar : term.isList = false := by simpa [fits] using hfits
    cases h
    exact ⟨fun _ => Term.flat_of_isList hscalar, fun _ => List.forall_mem_singleton.mpr hscalar⟩

/-! ### Steps -/

namespace Query

variable {q r : Query}

/-- The query binds no list. -/
def Scalar (q : Query) : Prop := ∀ t ∈ q.terms, t.isList = false

/-- Only the terms of a query tell whether it binds lists. -/
theorem scalar_of_terms_eq (h : r.terms = q.terms) : r.Scalar ↔ q.Scalar := by
  rw [Scalar, Scalar, h]

/-- With further terms a query binds no list exactly if none of these is one. -/
theorem scalar_of_perm {more : List Term} (h : r.terms.Perm (q.terms ++ more)) :
    r.Scalar ↔ q.Scalar ∧ ∀ t ∈ more, t.isList = false := by
  rw [Scalar, Scalar, ← List.forall_mem_append]
  exact forall_congr' fun t => imp_congr_left h.mem_iff

/-- A criterion keeps lists out of the statement if it is flat. -/
theorem scalar_search {c : Criterion} (h : q.search c = .ok r) : r.Scalar ↔ q.Scalar ∧ c.Flat := by
  rcases search_ok h with ⟨hblank, rfl⟩ | ⟨hblank, hcheck, operand, condition, -, hcondition, rfl⟩
  · have hflat : c.Flat := fun _ => Term.flat_of_isBlank hblank
    exact (and_iff_left hflat).symm
  · have hfits := Criterion.fits_of_check hblank hcheck
    have hterms := perm_terms_attach (q.follow c.path).1 c.tag c.combine condition
    rw [terms_follow] at hterms
    have hflat : c.Flat ↔ c.term.Flat := ⟨fun h => h hcheck, fun h _ => h⟩
    rw [scalar_of_perm hterms, SearchOperator.scalar_condition hfits hcondition, hflat]

/-- So does a criterion of a lenient search. -/
theorem scalar_searchLeniently {c : Criterion} (h : q.searchLeniently c = .ok r) :
    r.Scalar ↔ q.Scalar ∧ c.Flat := by
  unfold searchLeniently at h
  cases hcheck : c.check with
  | ok _ =>
    rw [hcheck] at h
    rw [scalar_search h, Criterion.flat_withWildcards]
  | error e =>
    -- a term of the wrong shape is passed over, whatever stands in it
    have hflat : c.Flat := by
      intro hok
      rw [hcheck] at hok
      cases hok
    rw [hcheck] at h
    cases h
    exact (and_iff_left hflat).symm

/-- A key of an ordering binds nothing. -/
theorem terms_sort {key : SortKey} (h : q.sort key = .ok r) : r.terms = q.terms := by
  rcases sort_ok h with ⟨-, rfl⟩ | ⟨direction, operand, -, -, rfl⟩
  · rfl
  · exact terms_follow q key.path

/-- Nor does an ordering. -/
theorem terms_sortAll {keys : List SortKey} (h : q.sortAll keys = .ok r) : r.terms = q.terms :=
  Except.foldlM_ok (P := fun s => s.terms = q.terms)
    (fun _ _ _ _ hs hstep => (terms_sort hstep).trans hs) rfl h

/-- A condition binds its terms after those of the query. -/
theorem terms_also (q : Query) (c : Condition) : (q.also c).terms = q.terms ++ c.terms := by
  rw [terms_eq_boundBy, terms_eq_boundBy]
  simp [also, boundBy]

/-- A page by key keeps lists out of the statement if its last key is no list. -/
theorem scalar_pageAfter {p : KeysetPage} (h : q.pageAfter p = .ok r) :
    r.Scalar ↔ q.Scalar ∧ p.Flat := by
  have hlimit (s : Query) : (s.withLimit (max p.perPage 1)).Scalar ↔ s.Scalar :=
    scalar_of_terms_eq rfl
  rcases pageAfter_ok h with ⟨hblank, rfl⟩ | ⟨hblank, key, -, rfl⟩
  · have hflat : p.Flat := by
      intro hnot
      rw [hblank] at hnot
      cases hnot
    rw [hlimit]
    exact (and_iff_left hflat).symm
  · rw [hlimit]
    have hterms := List.Perm.of_eq (terms_also q (.compare key .gt p.lastSeenKey))
    have hflat : p.Flat ↔ p.lastSeenKey.isList = false :=
      ⟨fun h => h hblank, fun h _ => h⟩
    rw [scalar_of_perm hterms, hflat]
    exact and_congr_right fun _ => List.forall_mem_singleton

end Query

/-! ### Hooks -/

namespace Builtin

variable {q r : Query} {b : Builtin} {document : Json}

/-- No criterion has a list in a list, and the last key seen is no list. -/
def FlatParameters : (b : Builtin) → b.Parameters → Prop
  | search | lenientSearch => fun criteria => ∀ entry ∈ criteria, entry.2.Flat
  | sort | lenientSort | offsetPage => fun _ => True
  | keysetPage => KeysetPage.Flat

/-- The parameters of the document have no list where a scalar is bound. -/
def Flat (b : Builtin) (document : Json) : Prop :=
  ∀ p, b.decode document = .ok p → b.FlatParameters p

/-- Parameters keep lists out of the statement if they are flat. -/
theorem scalar_apply {p : b.Parameters} (h : b.apply q p = .ok r) :
    r.Scalar ↔ q.Scalar ∧ b.FlatParameters p := by
  cases b with
  | search => exact Except.foldlM_iff (fun _ _ _ _ hstep => Query.scalar_search hstep) h
  | lenientSearch =>
    exact Except.foldlM_iff (fun _ _ _ _ hstep => Query.scalar_searchLeniently hstep) h
  | sort | lenientSort =>
    rw [Query.scalar_of_terms_eq (Query.terms_sortAll h)]
    exact (and_iff_left trivial).symm
  | offsetPage =>
    cases h
    exact (and_iff_left trivial).symm
  | keysetPage => exact Query.scalar_pageAfter h

/-- A hook keeps a query free of lists exactly if its parameters are flat. -/
theorem scalar_run (h : b.run q document = .ok r) : r.Scalar ↔ q.Scalar ∧ b.Flat document := by
  obtain ⟨p, hdecode, happly⟩ := run_ok h
  have hflat : b.Flat document ↔ b.FlatParameters p := by
    constructor
    · intro hall
      exact hall p hdecode
    · intro hp p' hdecode'
      rw [hdecode] at hdecode'
      cases hdecode'
      exact hp
  rw [scalar_apply happly, hflat]

end Builtin

end Listing
