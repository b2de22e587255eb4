import Listing.Page.Stage
import Listing.Proofs.Search.Normal

namespace Listing

/-!
# Pages in normal form

A page that has its totals asks for the page and the size that it shows.  Counting the same rows
again pulls it back no further, so it is normalised to itself.

* `toInt_max`, `toInt_min` — the greater and the lesser of two 64-bit integers;
* `OffsetPage.withTotal_request`, `OffsetPage.withTotal_withTotal` — a page with its totals, asked
  for and counted again;
* `OffsetPage.read_encode`, `KeysetPage.normalise_again`, `KeysetPage.decode_encode` — pages that
  are written are read again.
-/

/-! ### Integers of 64 bits

Greater and lesser are decided by the order of the integers, which `omega` knows. -/

/-- The larger integer has the larger value. -/
theorem toInt_max (a b : Int64) : (max a b).toInt = max a.toInt b.toInt := by
  show (if a ≤ b then b else a).toInt = _
  simp only [Int64.le_iff_toInt_le]
  split <;> omega

/-- The smaller integer has the smaller value. -/
theorem toInt_min (a b : Int64) : (min a b).toInt = min a.toInt b.toInt := by
  show (if a ≤ b then a else b).toInt = _
  simp only [Int64.le_iff_toInt_le]
  split <;> omega

/-- Raising to a bound what was raised to it already changes nothing. -/
theorem max_max_self (a b : Int64) : max (max a b) b = max a b := by
  rw [← Int64.toInt_inj]
  simp only [toInt_max]
  omega

/-- Bringing between two bounds what is between them already changes nothing. -/
theorem min_max_min_self (a low high : Int64) :
    min (max (min (max a low) (max high low)) low) (max high low) =
      min (max a low) (max high low) := by
  rw [← Int64.toInt_inj]
  simp only [toInt_max, toInt_min]
  omega

variable {q r : Query}

namespace OffsetPage

/-- What is asked for is brought within bounds, and its totals do not depend on that. -/
theorem withTotal_request (p : OffsetPage) (total : Int64) :
    (request p.page p.perPage).withTotal total = p.withTotal total := by
  simp only [withTotal, request, max_max_self]

/-- A page with the totals of a count gets the same totals again from the same count. -/
theorem withTotal_withTotal (p : OffsetPage) (total : Int64) :
    (p.withTotal total).withTotal total = p.withTotal total := by
  simp only [withTotal, max_max_self, min_max_min_self]

/-- A page that is written is read with its page and its size, and without its totals. -/
theorem read_encode (q : Query) (p : OffsetPage) (perPage : Int64) :
    read q p.encode perPage = .ok (request p.page p.perPage) := rfl

end OffsetPage

namespace KeysetPage

/-- A page that is read is within bounds, and its key column is a unique key. -/
theorem normalise_ok {request : Json} {perPage : Int64} {p : KeysetPage}
    (h : normalise q request perPage = .ok p) :
    q.entity.isUniqueKey p.keyField = true ∧ max p.perPage 1 = p.perPage ∧
      max p.page 1 = p.page := by
  obtain ⟨fields, -, h⟩ := Except.bind_ok h
  obtain ⟨keyField, -, h⟩ := Except.bind_ok h
  cases hunique : q.entity.isUniqueKey keyField with
  | false =>
    rw [hunique] at h
    cases h
  | true =>
    rw [hunique] at h
    obtain ⟨lastSeenKey, -, h⟩ := Except.bind_ok h
    obtain ⟨size, -, h⟩ := Except.bind_ok h
    obtain ⟨page, -, h⟩ := Except.bind_ok h
    cases h
    exact ⟨hunique, max_max_self _ _, max_max_self _ _⟩

/-- A page by key is normalised to what is written, for every query of the entity. -/
theorem normalise_again {request : Json} {perPage : Int64} {p : KeysetPage}
    (hentity : r.entity = q.entity) (h : normalise q request perPage = .ok p) :
    ∃ again, normalise r p.encode perPage = .ok again ∧ again.encode = p.encode := by
  obtain ⟨hunique, hsize, hpage⟩ := normalise_ok h
  refine ⟨{ p with lastSeenKey := p.lastSeenKey.settled }, ?_, ?_⟩
  -- the last key is read back as it settles, and written as it was
  · have hlast : lastSeen [("per_page", .int p.perPage), ("page", .int p.page),
        ("last_seen_key", p.lastSeenKey.encode), ("key_field", .str p.keyField)] =
        .ok p.lastSeenKey.settled := Request.term_encode p.lastSeenKey
    have hread : normalise r p.encode perPage = .ok
        { perPage := max p.perPage 1, page := max p.page 1, lastSeenKey := p.lastSeenKey.settled,
          keyField := p.keyField } := by
      show (if !r.entity.isUniqueKey p.keyField then _ else _) = _
      rw [hentity, hunique]
      show (lastSeen _ >>= _) = _
      rw [hlast]
      rfl
    rw [hread, hsize, hpage]
  · rw [encode, encode, Term.encode_settled]

/-- A page that is written is decoded, with its last key settled. -/
theorem decode_encode (p : KeysetPage) :
    decode p.encode = .ok { p with lastSeenKey := p.lastSeenKey.settled } := by
  have hlast := Term.decode_encode p.lastSeenKey
  have hcheck : Json.Record.check recordFields [("per_page", .int p.perPage), ("page", .int p.page),
      ("last_seen_key", p.lastSeenKey.encode), ("key_field", .str p.keyField)] = .ok () := by
    refine Json.Record.check_ok ?_
    simp only [List.forall_mem_cons]
    exact ⟨rfl, rfl, Json.Record.entryFault_of_ok rfl hlast, rfl, List.forall_mem_nil _⟩
  show ofFields _ = _
  rw [ofFields, hcheck]
  show (Term.decode p.lastSeenKey.encode >>= _) = _
  rw [hlast]
  rfl

end KeysetPage

end Listing
