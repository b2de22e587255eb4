import Listing.Proofs.Search.Scopes
import Listing.Proofs.Stage.Scalars

namespace Listing

/-!
# What becomes of the criterion of a scope

The criterion that a scope makes passes through a document before it reaches the query.  Everything
of it arrives but the floats that are no numbers: null is written in their place, and a criterion
that compares with nothing but null is passed over, so that the search loses it without an error.

* `Term.isFinite_settled` — what arrives of a term has no float that is no number;
* `Query.finite_search` — a search binds such floats exactly if its term has some;
* `Query.search_settled_iff` — searching by what arrives of a criterion is searching by the
  criterion exactly if the floats of its term are numbers;
* `Builtin.scope_delivered_iff` — the same for a request that refers to a scope;
* `Builtin.scope_lost` — a scope that compares with a NaN restricts nothing.
-/

open Sql (Condition)

/-! ### Floats that are no numbers -/

namespace Term

mutual

/-- The floats of a settled term are numbers. -/
theorem isFinite_settled : (t : Term) → t.settled.isFinite = true
  | null => rfl
  | bool _ => rfl
  | int _ => rfl
  | float x => by
    rw [settled]
    split
    · rename_i h
      rw [isFinite, h]
    · rfl
  | text _ => rfl
  | list items => by rw [settled, isFinite, areFinite_settledItems items]

/-- Settled items are numbers where they are floats. -/
theorem areFinite_settledItems : (items : List Term) → areFinite (settledItems items) = true
  | [] => rfl
  | item :: rest => by
    rw [settledItems, areFinite, isFinite_settled item, areFinite_settledItems rest]
    rfl

end

/-- Items are all finite if each is. -/
theorem areFinite_iff {items : List Term} :
    areFinite items = true ↔ ∀ item ∈ items, item.isFinite = true := by
  induction items with
  | nil => simp [areFinite]
  | cons item rest ih => rw [areFinite, Bool.and_eq_true, ih, List.forall_mem_cons]

/-- A blank term has no float. -/
theorem isFinite_of_isBlank {t : Term} (h : t.isBlank = true) : t.isFinite = true := by
  cases t with
  | list items =>
    rw [isBlank, List.isEmpty_iff] at h
    rw [h]
    rfl
  | float x => cases h
  | _ => rfl

end Term

/-- The condition of a term of the right shape binds floats that are no numbers exactly if the term
has some. -/
theorem SearchOperator.finite_condition {lhs : Sql.Operand} {operator : SearchOperator}
    {term : Term} {c : Condition} (hfits : operator.fits term = true)
    (h : operator.condition lhs term = .ok c) :
    (∀ t ∈ c.terms, t.isFinite = true) ↔ term.isFinite = true := by
  cases operator with
  | isIn =>
    cases term with
    | list items =>
      cases h
      rw [Condition.terms_isIn, Term.isFinite, Term.areFinite_iff]
    | _ => cases hfits
  | notIn =>
    cases term with
    | list items =>
      cases h
      rw [Condition.terms_isNotIn, Term.isFinite, Term.areFinite_iff]
    | _ => cases hfits
  | between =>
    cases term with
    | list items =>
      obtain ⟨low, high, rfl⟩ := List.length_eq_two.mp (by simpa [fits] using hfits)
      cases h
      rw [Term.isFinite, Term.areFinite_iff]
      rfl
    | _ => cases hfits
  | isNull =>
    -- a truth value, or a text that spells one
    have hfinite : term.isFinite = true := by
      cases term with
      | list items => cases hfits
      | float x => cases hfits
      | _ => rfl
    simp only [condition] at h
    split at h
    · cases h
      exact ⟨fun _ => hfinite, fun _ t ht => absurd ht List.not_mem_nil⟩
    · cases h
  | like | ilike | eq | gt | lt | gteq | lteq =>
    cases h
    exact List.forall_mem_singleton

/-! ### Searches -/

namespace Query

variable {q r : Query} {c : Criterion}

/-- A search binds terms in addition to those of the query, and floats that are no numbers exactly
if its own term has some. -/
theorem finite_search (h : q.search c = .ok r) : ∃ more, r.terms.Perm (q.terms ++ more) ∧
    ((∀ t ∈ more, t.isFinite = true) ↔ c.term.isFinite = true) := by
  rcases search_ok h with ⟨hblank, rfl⟩ | ⟨hblank, hcheck, operand, condition, -, hcondition, rfl⟩
  · have hfinite : c.term.isFinite = true := Term.isFinite_of_isBlank hblank
    exact ⟨[], by rw [List.append_nil], by simp [hfinite]⟩
  · have hfits := Criterion.fits_of_check hblank hcheck
    have hterms := perm_terms_attach (q.follow c.path).1 c.tag c.combine condition
    rw [terms_follow] at hterms
    exact ⟨condition.terms, hterms, SearchOperator.finite_condition hfits hcondition⟩

/-- Searching by what arrives of a criterion is searching by the criterion exactly if the floats of
its term are numbers. -/
theorem search_settled_iff (h : q.search c.settled = .ok r) :
    q.search c = .ok r ↔ c.term.isFinite = true := by
  constructor
  · -- one query binds the terms of both searches, and those of the settled one are numbers
    intro hrun
    obtain ⟨bound, hbound, hfinite⟩ := finite_search hrun
    obtain ⟨arrived, harrived, hsettled⟩ := finite_search h
    have hsame : bound.Perm arrived :=
      (List.perm_append_left_iff q.terms).mp (hbound.symm.trans harrived)
    have hnumbers : ∀ t ∈ arrived, t.isFinite = true := hsettled.mpr (Term.isFinite_settled c.term)
    exact hfinite.mp fun t ht => hnumbers t (hsame.mem_iff.mp ht)
  · intro hfinite
    rw [Criterion.settled, Term.settled_of_isFinite hfinite] at h
    exact h

end Query

/-! ### Requests -/

namespace Builtin

variable {m : Type → Type} [Monad m] [LawfulMonad m] {q : Query} {name : String} {value : Json}
  {s : Criterion}

/-- **Finite scopes are delivered.** A search that refers to one scope (`StrictSearch.expand`)
searches by what arrives of the criterion of the scope (`Criterion.settled`), and so by the
criterion exactly if the floats of its term are numbers (`Term.isFinite`). -/
theorem scope_delivered_iff (hscope : StrictSearch.expand q name value = .ok s)
    (context : Context m) :
    Yields (fun document => ∀ t r, search.run t document = .ok r →
        t.search s.settled = .ok r ∧ (t.search s = .ok r ↔ s.term.isFinite = true))
      (search.format q (.obj [(name, value)]) context) := by
  refine yields_liftOutcome ?_
  intro document hdocument t r hrun
  have hcriteria : StrictSearch.normalise q (.obj [(name, value)]) = .ok [(name, s)] :=
    Except.mapM_append_cons (StrictSearch.normaliseEntry_scope hscope) [] []
  rw [hcriteria] at hdocument
  cases hdocument
  obtain ⟨found, hread, hall⟩ := run_ok hrun
  have hdecode : Criteria.decode (Criteria.encode ([] ++ (name, s) :: [])) = .ok found := hread
  have hfield : s.field.wellFormed = true :=
    (Criteria.mem_of_decode_encode List.not_mem_nil hdecode).1
  -- a single entry is read back as it was written, with its term settled
  have hfound : found = [(name, s.settled)] := by
    have hnames : (Dict.keys [(name, s)]).Nodup := List.pairwise_singleton _ name
    have hknown := Criteria.decode_encode hnames (List.forall_mem_singleton.mpr hfield)
    exact Except.ok.inj (hread.symm.trans hknown)
  have hsearch : t.search s.settled = .ok r := by
    have hsteps : t.searchAll [(name, s.settled)] = .ok r := hfound ▸ hall
    rw [Query.searchAll, List.foldlM_cons] at hsteps
    obtain ⟨r', hstep, hnone⟩ := Except.bind_ok hsteps
    cases hnone
    exact hstep
  exact ⟨hsearch, Query.search_settled_iff hsearch⟩

/-- Products with a scope for those of at least a rating, and one for those of at least the average:
its bound is the quotient of no points by no votes. -/
def ratedProduct : Entity :=
  ((Entity.empty "product" "products").withSearchScope "atLeast" fun rating =>
    .ok ⟨.column "rating", [], .gteq, rating, .and⟩).withSearchScope "aboveAverage" fun _ =>
      .ok ⟨.column "rating", [], .gteq, .float ⟨0x7FF8000000000000⟩, .and⟩

/-- All rated products. -/
def ratedProducts : Query :=
  ⟨Registry.empty.insert ratedProduct rfl, ⟨⟨'p', 0⟩, "product"⟩, ratedProduct, [], [], [], none,
    none, none⟩

/-- No repository, and ten rows a page. -/
def bareContext : Context Id := ⟨none, 10⟩

/-- A rating is searched for by the scope as it is by the criterion of the scope. -/
theorem scope_delivered_iff_rating :
    ∃ s document r, StrictSearch.expand ratedProducts "atLeast" (.int 4) = .ok s ∧
      search.format ratedProducts (.obj [("atLeast", .int 4)]) bareContext = pure document ∧
      search.run ratedProducts document = .ok r ∧ ratedProducts.search s = .ok r := by
  have hscope : StrictSearch.expand ratedProducts "atLeast" (.int 4) =
      .ok ⟨.column "rating", [], .gteq, .int 4, .and⟩ := rfl
  have hdelivered := of_ensures_id (scope_delivered_iff hscope bareContext) _ rfl
  exact ⟨_, _, _, hscope, rfl, rfl, (hdelivered ratedProducts _ rfl).2.mpr rfl⟩

/-- **A scope is lost.** One that compares with a NaN leaves the query as it is, and there is no
error, though its criterion restricts the query. -/
theorem scope_lost :
    ∃ s document r, StrictSearch.expand ratedProducts "aboveAverage" .null = .ok s ∧
      s.term.isBlank = false ∧
      search.format ratedProducts (.obj [("aboveAverage", .null)]) bareContext = pure document ∧
      search.run ratedProducts document = .ok ratedProducts ∧
      ratedProducts.search s = .ok r ∧
      ratedProducts.selectSql = "SELECT p0.* FROM products AS p0" ∧
      r.selectSql = "SELECT p0.* FROM products AS p0 WHERE p0.rating >= $1" := by
  refine ⟨_, _, _, rfl, rfl, rfl, rfl, rfl, ?_, ?_⟩
  · decide +kernel
  · decide +kernel

end Builtin

end Listing
