import Listing.Proofs.Page.Normal
import Listing.Proofs.Sort.Normal
import Listing.Proofs.Stage.Frame

namespace Listing.Builtin

/-!
# Normal forms of parameters

What a hook of this library normalises parameters to, it normalises to itself: against any query of
the same entity and, for pages by offset, with the same count.  A scope may make a criterion or a
key that cannot be written, so searches and orderings must not refer to one.

* `Builtin.Unscoped` — parameters without a reference to such a scope;
* `Builtin.format_isNull` — normalised parameters are there;
* `Builtin.offsetPage_format_iff` — what normalising a page by offset consists of;
* `Builtin.format_again` — normalised parameters are normalised to themselves.
-/

variable {q r : Query} {request document : Json} {context : Context Id}

/-- The parameters refer to no scope of searches or orderings. -/
def Unscoped (b : Builtin) (request : Json) : Prop :=
  match b with
  | search | lenientSearch => Criteria.Unscoped request
  | sort | lenientSort => SortKeys.Unscoped request
  | offsetPage | keysetPage => True

/-- What parameters are normalised to is not null. -/
theorem format_isNull {b : Builtin} (h : b.format q request context = pure document) :
    document.isNull = false := by
  cases b with
  | search | lenientSearch | sort | lenientSort | keysetPage =>
    obtain ⟨value, -, rfl⟩ := Except.map_ok (liftOutcome_eq_pure.mp h)
    rfl
  | offsetPage =>
    obtain ⟨page, -, rfl⟩ := map_eq_pure.mp h
    rfl

/-- A page by offset is what the parameters ask for, with the totals of one count. -/
theorem offsetPage_format_iff : offsetPage.format q request context = pure document ↔
    ∃ asked repository total, OffsetPage.read q request context.perPage = .ok asked ∧
      context.repository = some repository ∧ repository.count q = pure total ∧
      document = (asked.withTotal total).encode := by
  rw [format, map_eq_pure]
  constructor
  · rintro ⟨page, hpage, rfl⟩
    rw [OffsetPage.normalise] at hpage
    split at hpage
    · cases hpage
    · rename_i asked hasked
      split at hpage
      · rename_i repository hrepository
        obtain ⟨total, htotal, hpage⟩ := bind_eq_pure.mp hpage
        rw [← pure_inj hpage]
        exact ⟨asked, repository, total, hasked, hrepository, htotal, rfl⟩
      · cases hpage
  · rintro ⟨asked, repository, total, hasked, hrepository, htotal, rfl⟩
    refine ⟨asked.withTotal total, ?_, rfl⟩
    rw [OffsetPage.normalise, hasked]
    simp only
    rw [hrepository]
    exact bind_eq_pure.mpr ⟨total, htotal, rfl⟩

/-- A page that is written is normalised to the page with the totals of one more count. -/
theorem offsetPage_format_encode {repository : Repository Id} {total : Int64} (page : OffsetPage)
    (hrepository : context.repository = some repository)
    (htotal : repository.count q = pure total) :
    offsetPage.format q page.encode context = pure (page.withTotal total).encode := by
  refine offsetPage_format_iff.mpr ⟨_, repository, total,
    OffsetPage.read_encode q page context.perPage, hrepository, htotal, ?_⟩
  rw [OffsetPage.withTotal_request]

/-- A written page is read back and applied. -/
theorem offsetPage_run_encode (q : Query) (page : OffsetPage) :
    offsetPage.run q page.encode = .ok (q.page page) := rfl

/-- Normalised parameters are normalised to themselves, against every query of the entity that is
counted alike. -/
theorem format_again {b : Builtin} (hscope : b.Unscoped request) (hentity : r.entity = q.entity)
    (hcount : b = .offsetPage → ∀ repository, context.repository = some repository →
      repository.count r = repository.count q)
    (h : b.format q request context = pure document) :
    b.format r document context = pure document := by
  cases b with
  | search =>
    obtain ⟨criteria, hcriteria, rfl⟩ := Except.map_ok (liftOutcome_eq_pure.mp h)
    obtain ⟨again, hagain, hencode⟩ := StrictSearch.normalise_again (r := r) hscope hcriteria
    rw [format, hagain, ← hencode]
    rfl
  | lenientSearch =>
    obtain ⟨criteria, hcriteria, rfl⟩ := Except.map_ok (liftOutcome_eq_pure.mp h)
    obtain ⟨again, hagain, hencode⟩ := LenientSearch.normalise_again (r := r) hscope hcriteria
    rw [format, hagain, ← hencode]
    rfl
  | sort =>
    obtain ⟨keys, hkeys, rfl⟩ := Except.map_ok (liftOutcome_eq_pure.mp h)
    rw [format, StrictSort.normalise_again hscope hkeys]
    rfl
  | lenientSort =>
    obtain ⟨keys, hkeys, rfl⟩ := Except.map_ok (liftOutcome_eq_pure.mp h)
    rw [format, LenientSort.normalise_again hscope hkeys]
    rfl
  | offsetPage =>
    obtain ⟨asked, repository, total, -, hrepository, htotal, rfl⟩ := offsetPage_format_iff.mp h
    -- the total is counted again, and it has to be the same
    rw [← hcount rfl repository hrepository] at htotal
    rw [offsetPage_format_encode _ hrepository htotal, OffsetPage.withTotal_withTotal]
  | keysetPage =>
    obtain ⟨page, hpage, rfl⟩ := Except.map_ok (liftOutcome_eq_pure.mp h)
    obtain ⟨again, hagain, hencode⟩ := KeysetPage.normalise_again hentity hpage
    rw [format, hagain, ← hencode]
    rfl

end Listing.Builtin
