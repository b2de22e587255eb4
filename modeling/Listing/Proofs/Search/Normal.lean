import Listing.Proofs.Dict
import Listing.Proofs.Outcome
import Listing.Proofs.Term.Wire
import Listing.Search.Lenient

namespace Listing

/-!
# Searches in normal form

The criteria that a search is normalised to are written as objects, and normalising these objects
gives the criteria that were written.  Neither kind of search has anything left to fill in or to
leave out.

* `Field.wellFormed_of_parse`, `JoinPath.parse_encode` — fields and paths, read and written;
* `Criterion.settled` — the criterion that is read where one is written;
* `StrictSearch.normaliseEntry_encode`, `LenientSearch.normaliseEntry_encode` — one criterion;
* `StrictSearch.normalise_ok`, `LenientSearch.normalise_ok` — what is known of all criteria of a
  request that names no scope;
* `StrictSearch.normalise_again`, `LenientSearch.normalise_again` — these are normalised to
  themselves.
-/

/-! ### Fields and paths -/

/-- A field that is read has as many columns as its template takes. -/
theorem Field.wellFormed_of_parse {document : Json} {field : Field}
    (h : Field.parse document = .ok field) : field.wellFormed = true := by
  unfold parse at h
  split at h
  · cases h
    rfl
  · rename_i fields
    unfold parseComputed at h
    -- only the list of columns of a computed field can be too short or too long
    split at h
    · cases h
    · obtain ⟨template, -, h⟩ := Except.bind_ok h
      split at h
      · cases h
      · obtain ⟨args, -, h⟩ := Except.bind_ok h
        unfold compute at h
        split at h
        · rename_i hlength
          cases h
          simpa [wellFormed] using hlength
        · cases h
  · cases h

/-- A path that is written is read back. -/
theorem JoinPath.parse_encode (path : JoinPath) : JoinPath.parse path.encode = .ok path := by
  have hsteps := Except.mapM_map_ok id fun step (_ : step ∈ path) => JoinStep.parse_encode step
  rw [List.map_id] at hsteps
  exact hsteps

/-- What is read as an object is one. -/
theorem Request.object_ok {hook : String} {document : Json} {fields : Dict Json}
    (h : Request.object hook document = .ok fields) : document = .obj fields := by
  cases document with
  | obj entries =>
    cases h
    rfl
  | _ => cases h

/-- A term is read back as it settles: a float that is no number has become null. -/
theorem Request.term_encode (t : Term) : Request.term t.encode = .ok t.settled := by
  rw [Request.term, Term.decode_encode]
  rfl

/-! ### Criteria -/

namespace Criterion

/-- What stands in the document of a criterion. -/
def fields (c : Criterion) : Dict Json :=
  [("field", c.field.encode), ("assoc", JoinPath.encode c.path),
    ("search_type", .str c.operator.wireName), ("search_term", c.term.encode),
    ("search_expr", .str c.combine.wireName)]

/-- A criterion is written as a record of its fields. -/
theorem encode_eq (c : Criterion) : c.encode = .obj c.fields := rfl

/-- The criterion that is read where this one is written. -/
def settled (c : Criterion) : Criterion := { c with term := c.term.settled }

/-- A settled criterion is written like the one that it comes from. -/
theorem encode_settled (c : Criterion) : c.settled.encode = c.encode := by
  rw [encode, encode, settled, Term.encode_settled]

/-- A term of the shape that an operator needs keeps it, or becomes blank. -/
theorem fits_settled {operator : SearchOperator} {t : Term} (h : operator.fits t = true) :
    t.settled.isBlank = true ∨ operator.fits t.settled = true := by
  cases t with
  | float x =>
    -- a float that is no number settles as null, which is blank and fits everywhere
    rw [Term.settled]
    split
    · exact .inr h
    · exact .inl rfl
  | list items =>
    right
    rw [Term.settled]
    cases operator with
    | between => simpa [SearchOperator.fits, Term.length_settledItems] using h
    | _ => exact h
  | _ => exact .inr h

/-- A criterion passes the check if its term is blank or has the shape that its operator needs. -/
theorem check_ok_iff {c : Criterion} :
    c.check = .ok () ↔ c.term.isBlank = true ∨ c.operator.fits c.term = true := by
  rw [check, ← Bool.or_eq_true]
  split
  · rename_i h
    exact ⟨fun _ => h, fun _ => rfl⟩
  · rename_i h
    exact ⟨fun hok => (nomatch hok), fun h' => absurd h' h⟩

/-- A term that is not blank has that shape, if the check is passed. -/
theorem fits_of_check {c : Criterion} (hblank : c.term.isBlank = false) (h : c.check = .ok ()) :
    c.operator.fits c.term = true :=
  (check_ok_iff.mp h).resolve_left (ne_true_of_eq_false hblank)

/-- Settling a term never makes the check fail. -/
theorem check_settled {c : Criterion} (h : c.check = .ok ()) : c.settled.check = .ok () := by
  rw [check_ok_iff] at h ⊢
  rcases h with hblank | hfits
  · exact .inl (Term.isBlank_settled hblank)
  · exact fits_settled hfits

end Criterion

/-- An operator is read from its name. -/
theorem SearchOperator.parse_wireName (op : SearchOperator) :
    SearchOperator.parse op.wireName = .ok op := by
  rw [parse, ofName?_wireName]

/-- So is the way in which a condition is put to the others. -/
theorem Combine.asVariant_wireName (c : Combine) :
    Json.asVariant Combine.named (.str c.wireName) = .ok c := by
  cases c <;> rfl

namespace StrictSearch

section Fields

variable (c : Criterion)

/-- The field of a written criterion is read back. -/
theorem field_fields (name : String) {c : Criterion} (h : c.field.wellFormed = true) :
    field name c.fields = .ok c.field := Field.parse_encode h

/-- So is its path. -/
theorem path_fields : path c.fields = .ok c.path := JoinPath.parse_encode c.path

/-- So is its operator. -/
theorem operator_fields (hook : String) : operator hook c.fields = .ok c.operator :=
  SearchOperator.parse_wireName c.operator

/-- So is its term, as it settles. -/
theorem term_fields (hook : String) : term hook c.fields = .ok c.term.settled :=
  Request.term_encode c.term

/-- So is the way in which it is put to the others. -/
theorem combine?_fields : combine? c.fields = .ok c.combine := by
  show (Json.asVariant Combine.named (.str c.combine.wireName)).mapError _ = _
  rw [Combine.asVariant_wireName]
  rfl

end Fields

/-- The field of an entry that is read has as many columns as its template takes. -/
theorem wellFormed_field {name : String} {fields : Dict Json} {f : Field}
    (h : field name fields = .ok f) : f.wellFormed = true := by
  unfold field at h
  split at h
  · exact Field.wellFormed_of_parse h
  · cases h
    rfl

/-- An entry that is read has a well-formed field and a term of the needed shape. -/
theorem entry_ok {hook name : String} {fields : Dict Json} {c : Criterion}
    (h : entry hook name fields = .ok c) : c.field.wellFormed = true ∧ c.check = .ok () := by
  obtain ⟨f, hfield, h⟩ := Except.bind_ok h
  obtain ⟨path, -, h⟩ := Except.bind_ok h
  obtain ⟨operator, -, h⟩ := Except.bind_ok h
  obtain ⟨term, -, h⟩ := Except.bind_ok h
  obtain ⟨combine, -, h⟩ := Except.bind_ok h
  obtain ⟨_, hcheck, h⟩ := Except.bind_ok h
  cases h
  exact ⟨wellFormed_field hfield, hcheck⟩

/-- An entry that is written is refused, after its field, for its term alone. -/
theorem entry_fields (hook name : String) (c : Criterion) :
    entry hook name c.fields = (field name c.fields >>= fun f =>
      c.settled.check >>= fun _ => .ok { c.settled with field := f }) := by
  rw [entry, path_fields, operator_fields, term_fields, combine?_fields]
  rfl

/-- An entry that is written is read again, whatever its name is. -/
theorem normaliseEntry_encode (q : Query) (name : String) {c : Criterion}
    (hfield : c.field.wellFormed = true) (hcheck : c.check = .ok ()) :
    normaliseEntry q (name, c.encode) = .ok (name, c.settled) := by
  have hentry : entry "search" name c.fields = .ok c.settled := by
    rw [entry_fields, field_fields name hfield, Criterion.check_settled hcheck]
    rfl
  rw [normaliseEntry, c.encode_eq]
  simp only
  rw [hentry]
  rfl

end StrictSearch

namespace LenientSearch

/-- An entry that is read has a well-formed field. -/
theorem entry_ok {name : String} {fields : Dict Json} {c : Criterion}
    (h : entry name fields = .ok (some c)) : c.field.wellFormed = true := by
  unfold entry at h
  split at h
  · obtain ⟨f, hfield, h⟩ := Except.bind_ok h
    obtain ⟨path, -, h⟩ := Except.bind_ok h
    obtain ⟨term, -, h⟩ := Except.bind_ok h
    cases h
    exact StrictSearch.wellFormed_field hfield
  · cases h

/-- An entry that is written is refused for its field alone, and it is not left out. -/
theorem entry_fields (name : String) (c : Criterion) :
    entry name c.fields = (StrictSearch.field name c.fields >>= fun f =>
      .ok (some { c.settled with field := f })) := by
  have hoperator : operator? c.fields = some c.operator :=
    SearchOperator.ofName?_wireName c.operator
  have hterm : Dict.get? c.fields "search_term" = some c.term.encode := rfl
  rw [entry, hoperator, hterm, StrictSearch.combine?_fields]
  simp only
  rw [StrictSearch.path_fields, Request.term_encode]
  rfl

/-- An entry that is written is read again and is not left out. -/
theorem normaliseEntry_encode (q : Query) (name : String) {c : Criterion}
    (hfield : c.field.wellFormed = true) :
    normaliseEntry q (name, c.encode) = .ok (some (name, c.settled)) := by
  have hentry : entry name c.fields = .ok (some c.settled) := by
    rw [entry_fields, StrictSearch.field_fields name hfield]
    rfl
  rw [normaliseEntry, c.encode_eq]
  simp only
  rw [hentry]
  rfl

end LenientSearch

/-! ### Requests -/

/-- No entry of the search refers to a scope: what is no object is the value of one. -/
def Criteria.Unscoped (request : Json) : Prop :=
  ∀ entries, request = .obj entries → ∀ entry ∈ entries, ∃ fields, entry.2 = .obj fields

namespace Criteria

/-- Criteria that are read entry by entry from the document of others are written as it is. -/
theorem encode_of_forall₂ {criteria read : Criteria}
    (h : List.Forall₂ (fun x y => x = (y.1, y.2.encode))
      (Dict.ofEntries (criteria.map fun entry => (entry.1, entry.2.encode))) read) :
    encode read = encode criteria := by
  have hread : read.map (fun entry => (entry.1, entry.2.encode)) =
      Dict.ofEntries (criteria.map fun entry => (entry.1, entry.2.encode)) := by
    generalize Dict.ofEntries (criteria.map fun entry => (entry.1, entry.2.encode)) = entries at h
    induction h with
    | nil => rfl
    | cons hfirst _ ih => rw [List.map_cons, ih, hfirst]
  rw [encode, hread, Dict.ofEntries_of_nodup (Dict.nodup_keys_ofEntries _), encode]

/-- An entry of the document of some criteria is the document of one of them. -/
theorem exists_of_mem_encode {criteria : Criteria} {x : String × Json}
    (h : x ∈ Dict.ofEntries (criteria.map fun entry => (entry.1, entry.2.encode))) :
    ∃ c, (x.1, c) ∈ criteria ∧ x.2 = c.encode := by
  obtain ⟨entry, hentry, rfl⟩ := List.mem_map.mp (Dict.mem_ofEntries h)
  exact ⟨entry.2, hentry, rfl⟩

end Criteria

/-- The criteria of a strict search have well-formed fields and terms of the needed shape. -/
theorem StrictSearch.normalise_ok {q : Query} {request : Json} {criteria : Criteria}
    (hscope : Criteria.Unscoped request) (h : normalise q request = .ok criteria) :
    ∀ entry ∈ criteria, entry.2.field.wellFormed = true ∧ entry.2.check = .ok () := by
  obtain ⟨entries, hobject, h⟩ := Except.bind_ok h
  intro entry hentry
  obtain ⟨x, hx, hrun⟩ := Except.mapM_ok h entry hentry
  obtain ⟨fields, hfields⟩ := hscope entries (Request.object_ok hobject) x hx
  rw [normaliseEntry, hfields] at hrun
  obtain ⟨c, hc, hrun⟩ := Except.bind_ok hrun
  cases hrun
  exact entry_ok hc

/-- The criteria of a lenient search have well-formed fields. -/
theorem LenientSearch.normalise_ok {q : Query} {request : Json} {criteria : Criteria}
    (hscope : Criteria.Unscoped request) (h : normalise q request = .ok criteria) :
    ∀ entry ∈ criteria, entry.2.field.wellFormed = true := by
  obtain ⟨entries, hobject, h⟩ := Except.bind_ok h
  obtain ⟨found, hfound, h⟩ := Except.bind_ok h
  cases h
  intro entry hentry
  -- entries that are dropped are left out of the result, so each criterion comes from an entry
  obtain ⟨x, hx, hrun⟩ := Except.mapM_ok hfound (some entry) (by simpa using hentry)
  obtain ⟨fields, hfields⟩ := hscope entries (Request.object_ok hobject) x hx
  rw [normaliseEntry, hfields] at hrun
  obtain ⟨c, hc, hrun⟩ := Except.bind_ok hrun
  cases c with
  | none => cases hrun
  | some c =>
    cases hrun
    exact entry_ok hc

/-- The criteria of a strict search are normalised to what is written. -/
theorem StrictSearch.normalise_again {q r : Query} {request : Json} {criteria : Criteria}
    (hscope : Criteria.Unscoped request) (h : normalise q request = .ok criteria) :
    ∃ again, normalise r criteria.encode = .ok again ∧ again.encode = criteria.encode := by
  have hgood := normalise_ok hscope h
  obtain ⟨again, hagain, heach⟩ := Except.exists_mapM_ok (f := normaliseEntry r)
    (P := fun x y => x = (y.1, y.2.encode)) id
    (Dict.ofEntries (criteria.map fun entry => (entry.1, entry.2.encode))) (by
      intro x hx
      obtain ⟨c, hc, hencode⟩ := Criteria.exists_of_mem_encode hx
      obtain ⟨hfield, hcheck⟩ := hgood _ hc
      -- what is read the second time are the settled criteria, which are written alike
      refine ⟨(x.1, c.settled), ?_, ?_⟩
      · have hread := normaliseEntry_encode r x.1 hfield hcheck
        rw [← hencode] at hread
        exact hread
      · rw [Criterion.encode_settled, ← hencode])
  rw [List.map_id] at hagain
  exact ⟨again, hagain, Criteria.encode_of_forall₂ heach⟩

/-- The criteria of a lenient search are normalised to what is written. -/
theorem LenientSearch.normalise_again {q r : Query} {request : Json} {criteria : Criteria}
    (hscope : Criteria.Unscoped request) (h : normalise q request = .ok criteria) :
    ∃ again, normalise r criteria.encode = .ok again ∧ again.encode = criteria.encode := by
  have hgood := normalise_ok hscope h
  obtain ⟨again, hagain, heach⟩ := Except.exists_mapM_ok (f := normaliseEntry r)
    (P := fun x y => x = (y.1, y.2.encode)) some
    (Dict.ofEntries (criteria.map fun entry => (entry.1, entry.2.encode))) (by
      intro x hx
      obtain ⟨c, hc, hencode⟩ := Criteria.exists_of_mem_encode hx
      refine ⟨(x.1, c.settled), ?_, ?_⟩
      · have hread := normaliseEntry_encode r x.1 (hgood _ hc)
        rw [← hencode] at hread
        exact hread
      · rw [Criterion.encode_settled, ← hencode])
  refine ⟨again, ?_, Criteria.encode_of_forall₂ heach⟩
  show (Dict.ofEntries _).mapM (normaliseEntry r) >>= (fun found => .ok (found.filterMap id)) = _
  rw [hagain]
  -- nothing is dropped the second time
  show Except.ok ((again.map some).filterMap id) = _
  simp

end Listing
