import Listing.Proofs.Search.Wildcards
import Listing.Proofs.Stage.Wire

namespace Listing

/-!
# Scopes of a search

An entry of a search is a criterion that is written out, or refers to a scope, which makes one.
What a scope makes is not looked at before its document is read and applied, while a criterion that
is written out is refused as soon as it is normalised.  Whether it is refused is the same.

* `Field.wellFormed_of_parse_encode` — what is written of a field is read only if it is well formed;
* `Builtin.Accepts` — a hook of a search takes a criterion that is written out;
* `Builtin.format_scope` — then a reference to the scope has the same normal form;
* `Builtin.format_written_refused`, `Builtin.run_scope_refused` — if it does not, the written
  criterion has no normal form, and no query takes that of the reference.
-/

/-! ### Criteria that are written -/

/-- What is written of a computed field with too few or too many columns is not read. -/
theorem Field.wellFormed_of_parse_encode {field found : Field}
    (h : parse field.encode = .ok found) : field.wellFormed = true := by
  cases field with
  | column name => rfl
  | computed template args =>
    have hread : parse (computed template args).encode = compute template args := by
      simp [encode, parse, parseComputed, Dict.get?, List.lookup_cons, Json.string?, Json.items?,
        templateNamed, argNames_map_str, bind, Except.bind]
    rw [hread, compute] at h
    split at h
    · rename_i hlength
      simpa [wellFormed] using hlength
    · cases h

/-- A criterion that is decoded from its document has a field with its columns. -/
theorem Criterion.wellFormed_of_decode_encode {c found : Criterion}
    (h : decode c.encode = .ok found) : c.field.wellFormed = true := by
  have hfields : ofFields c.fields = .ok found := h
  rw [ofFields] at hfields
  obtain ⟨_, -, hfields⟩ := Except.bind_ok hfields
  obtain ⟨field, hfield, -⟩ := Except.bind_ok hfields
  have hdecode : Field.decode c.field.encode = .ok field := hfield
  exact Field.wellFormed_of_parse_encode (Except.mapError_ok hdecode)

namespace Criteria

/-- Criteria with the same document at one place have the same document. -/
theorem encode_replace {c d : Criterion} (h : c.encode = d.encode) (earlier later : Criteria)
    (name : String) :
    encode (earlier ++ (name, c) :: later) = encode (earlier ++ (name, d) :: later) := by
  rw [encode, encode, List.map_append, List.map_append, List.map_cons, List.map_cons, h]

/-- What is written of a criterion is read as that criterion, settled, if it is read. -/
theorem settled_of_decodeEntry {name : String} {c : Criterion} {entry : String × Criterion}
    (h : decodeEntry (name, c.encode) = .ok entry) :
    c.field.wellFormed = true ∧ entry = (name, c.settled) := by
  rw [decodeEntry] at h
  cases hc : Criterion.decode c.encode with
  | error e =>
    rw [hc] at h
    cases h
  | ok d =>
    have hfield := Criterion.wellFormed_of_decode_encode hc
    rw [Criterion.decode_encode hfield] at h
    cases h
    exact ⟨hfield, rfl⟩

/-- If the document of some criteria is read, what is read are criteria among them, settled. -/
theorem settled_of_decode_encode {criteria found : Criteria}
    (h : decode (encode criteria) = .ok found) :
    ∀ entry ∈ found, ∃ c, (entry.1, c) ∈ criteria ∧ entry.2 = c.settled := by
  have hread : (Dict.ofEntries (criteria.map fun entry => (entry.1, entry.2.encode))).mapM
      decodeEntry = .ok found := h
  intro entry hentry
  obtain ⟨⟨name, document⟩, hx, hdecode⟩ := Except.mapM_ok hread entry hentry
  obtain ⟨c, hc, rfl⟩ := exists_of_mem_encode hx
  obtain ⟨-, rfl⟩ := settled_of_decodeEntry hdecode
  exact ⟨c, hc, rfl⟩

/-- If the document of some criteria is read, the last of a name is among what is read, settled. -/
theorem mem_of_decode_encode {earlier later found : Criteria} {name : String} {c : Criterion}
    (hlast : name ∉ Dict.keys later)
    (h : decode (encode (earlier ++ (name, c) :: later)) = .ok found) :
    c.field.wellFormed = true ∧ (name, c.settled) ∈ found := by
  -- of the entries with the name only the last is written, and it is the one of the criterion
  let write (entry : String × Criterion) : String × Json := (entry.1, entry.2.encode)
  have hlast' : name ∉ Dict.keys (later.map write) := by
    rw [Dict.keys, List.map_map]
    exact hlast
  have hmem : (name, c.encode) ∈ Dict.ofEntries ((earlier ++ (name, c) :: later).map write) := by
    rw [List.map_append, List.map_cons]
    exact Dict.mem_ofEntries_of_last hlast' c.encode
  have hread : (Dict.ofEntries ((earlier ++ (name, c) :: later).map write)).mapM decodeEntry =
      .ok found := h
  obtain ⟨entry, hentry, hdecode⟩ := Except.mapM_ok_of_mem hread hmem
  obtain ⟨hfield, rfl⟩ := settled_of_decodeEntry hdecode
  exact ⟨hfield, hentry⟩

end Criteria

/-! ### Entries of a request -/

variable {q : Query} {name : String} {value : Json} {s : Criterion} {before after : Dict Json}
  {criteria : Criteria}

namespace StrictSearch

/-- The value of a scope is a term, and so no object. -/
theorem ne_obj_of_expand (h : expand q name value = .ok s) (fields : Dict Json) :
    value ≠ .obj fields := by
  rintro rfl
  obtain ⟨scope, -, h⟩ := Except.bind_ok h
  obtain ⟨t, hterm, -⟩ := Except.bind_ok h
  have hdecode := Except.mapError_ok hterm
  rw [Term.decode, Term.ofJson?] at hdecode
  cases hdecode

/-- An entry that names a scope becomes what the scope makes of it. -/
theorem normaliseEntry_scope (h : expand q name value = .ok s) :
    normaliseEntry q (name, value) = .ok (name, s) := by
  unfold normaliseEntry
  split
  · rename_i fields hfields
    exact absurd hfields (ne_obj_of_expand h fields)
  · rw [h]
    rfl

/-- A normalised entry keeps its name. -/
theorem name_of_normaliseEntry {x : String × Json} {y : String × Criterion}
    (h : normaliseEntry q x = .ok y) : y.1 = x.1 := by
  unfold normaliseEntry at h
  split at h
  all_goals
    obtain ⟨c, -, h⟩ := Except.bind_ok h
    cases h
    rfl

/-- An entry that is written is read only with a well-formed field and a term of the needed
shape. -/
theorem accepts_of_normaliseEntry {found : String × Criterion}
    (h : normaliseEntry q (name, s.encode) = .ok found) :
    s.field.wellFormed = true ∧ s.settled.check = .ok () := by
  rw [normaliseEntry, s.encode_eq] at h
  obtain ⟨c, hentry, -⟩ := Except.bind_ok h
  rw [entry_fields] at hentry
  obtain ⟨f, hf, hentry⟩ := Except.bind_ok hentry
  obtain ⟨_, hcheck, -⟩ := Except.bind_ok hentry
  exact ⟨Field.wellFormed_of_parse_encode hf, hcheck⟩

/-- The criterion of a scope stands at the place of the entry that refers to it. -/
theorem normalise_scope (hscope : expand q name value = .ok s)
    (h : normalise q (.obj (before ++ (name, value) :: after)) = .ok criteria) :
    ∃ earlier later, criteria = earlier ++ (name, s) :: later ∧
      (name ∉ Dict.keys after → name ∉ Dict.keys later) := by
  have hentries : (before ++ (name, value) :: after).mapM (normaliseEntry q) = .ok criteria := h
  rw [Except.mapM_append_cons (normaliseEntry_scope hscope)] at hentries
  obtain ⟨earlier, -, hentries⟩ := Except.bind_ok hentries
  obtain ⟨later, hlater, rfl⟩ := Except.map_ok hentries
  refine ⟨earlier, later, rfl, ?_⟩
  intro hafter hmem
  obtain ⟨y, hy, rfl⟩ := List.mem_map.mp hmem
  obtain ⟨x, hx, hrun⟩ := Except.mapM_ok hlater y hy
  exact hafter (name_of_normaliseEntry hrun ▸ List.mem_map_of_mem hx)

/-- A request has one normal form, whether it refers to a scope or writes its criterion out. -/
theorem encode_normalise_scope (hscope : expand q name value = .ok s)
    (hfield : s.field.wellFormed = true) (hcheck : s.settled.check = .ok ())
    (before after : Dict Json) :
    (normalise q (.obj (before ++ (name, value) :: after))).map Criteria.encode =
      (normalise q (.obj (before ++ (name, s.encode) :: after))).map Criteria.encode := by
  have hwritten : normaliseEntry q (name, s.encode) = .ok (name, s.settled.settled) := by
    rw [← s.encode_settled]
    exact normaliseEntry_encode q name hfield hcheck
  -- settled twice is written as settled once
  have hencode : s.encode = s.settled.settled.encode := by
    rw [Criterion.encode_settled, Criterion.encode_settled]
  show ((before ++ (name, value) :: after).mapM (normaliseEntry q)).map Criteria.encode =
    ((before ++ (name, s.encode) :: after).mapM (normaliseEntry q)).map Criteria.encode
  rw [Except.mapM_append_cons (normaliseEntry_scope hscope), Except.mapM_append_cons hwritten]
  cases before.mapM (normaliseEntry q) with
  | error e => rfl
  | ok earlier =>
    cases after.mapM (normaliseEntry q) with
    | error e => rfl
    | ok later => exact congrArg Except.ok (Criteria.encode_replace hencode earlier later name)

end StrictSearch

namespace LenientSearch

/-- An entry of a lenient search that names a scope becomes what the scope makes of it. -/
theorem normaliseEntry_scope (h : StrictSearch.expand q name value = .ok s) :
    normaliseEntry q (name, value) = .ok (some (name, s)) := by
  unfold normaliseEntry
  split
  · rename_i fields hfields
    exact absurd hfields (StrictSearch.ne_obj_of_expand h fields)
  · rw [h]
    rfl

/-- It keeps its name, unless it is dropped. -/
theorem name_of_normaliseEntry {x : String × Json} {y : String × Criterion}
    (h : normaliseEntry q x = .ok (some y)) : y.1 = x.1 := by
  unfold normaliseEntry at h
  split at h
  all_goals
    obtain ⟨c, -, h⟩ := Except.bind_ok h
    cases c with
    | none => cases h
    | some c =>
      cases h
      rfl

/-- An entry that is written is read only with a well-formed field. -/
theorem accepts_of_normaliseEntry {found : Option (String × Criterion)}
    (h : normaliseEntry q (name, s.encode) = .ok found) : s.field.wellFormed = true := by
  rw [normaliseEntry, s.encode_eq] at h
  obtain ⟨c, hentry, -⟩ := Except.bind_ok h
  rw [LenientSearch.entry_fields] at hentry
  obtain ⟨f, hf, -⟩ := Except.bind_ok hentry
  exact Field.wellFormed_of_parse_encode hf

/-- The criterion of a scope stands among the criteria, and no later one has its name. -/
theorem normalise_scope (hscope : StrictSearch.expand q name value = .ok s)
    (h : normalise q (.obj (before ++ (name, value) :: after)) = .ok criteria) :
    ∃ earlier later, criteria = earlier ++ (name, s) :: later ∧
      (name ∉ Dict.keys after → name ∉ Dict.keys later) := by
  obtain ⟨found, hentries, h⟩ := Except.bind_ok (x :=
    (before ++ (name, value) :: after).mapM (normaliseEntry q)) h
  cases h
  rw [Except.mapM_append_cons (normaliseEntry_scope hscope)] at hentries
  obtain ⟨earlier, -, hentries⟩ := Except.bind_ok hentries
  obtain ⟨later, hlater, rfl⟩ := Except.map_ok hentries
  refine ⟨earlier.filterMap id, later.filterMap id, by simp, ?_⟩
  intro hafter hmem
  obtain ⟨y, hy, rfl⟩ := List.mem_map.mp hmem
  obtain ⟨x, hx, hrun⟩ := Except.mapM_ok hlater (some y) (by simpa using hy)
  exact hafter (name_of_normaliseEntry hrun ▸ List.mem_map_of_mem hx)

/-- A request has one normal form, whether it refers to a scope or writes its criterion out. -/
theorem encode_normalise_scope (hscope : StrictSearch.expand q name value = .ok s)
    (hfield : s.field.wellFormed = true) (before after : Dict Json) :
    (normalise q (.obj (before ++ (name, value) :: after))).map Criteria.encode =
      (normalise q (.obj (before ++ (name, s.encode) :: after))).map Criteria.encode := by
  have hwritten : normaliseEntry q (name, s.encode) = .ok (some (name, s.settled)) :=
    normaliseEntry_encode q name hfield
  show ((before ++ (name, value) :: after).mapM (normaliseEntry q) >>=
      fun found => Except.ok (found.filterMap id)).map Criteria.encode =
    ((before ++ (name, s.encode) :: after).mapM (normaliseEntry q) >>=
      fun found => Except.ok (found.filterMap id)).map Criteria.encode
  rw [Except.mapM_append_cons (normaliseEntry_scope hscope), Except.mapM_append_cons hwritten]
  cases before.mapM (normaliseEntry q) with
  | error e => rfl
  | ok earlier =>
    cases after.mapM (normaliseEntry q) with
    | error e => rfl
    | ok later =>
      -- what is written for the two entries is the same
      have hencode := Criteria.encode_replace s.encode_settled.symm (earlier.filterMap id)
        (later.filterMap id) name
      show Except.ok (Criteria.encode ((earlier ++ some (name, s) :: later).filterMap id)) =
        .ok (Criteria.encode ((earlier ++ some (name, s.settled) :: later).filterMap id))
      simpa using hencode

end LenientSearch

/-! ### Hooks of a search -/

namespace Builtin

/-- The hook is one of a search. -/
def IsSearch (b : Builtin) : Prop := b = search ∨ b = lenientSearch

/-- A hook of a search takes the criterion when it is written out: a computed field has the columns
that its template takes and, unless the search is lenient, the term that is read has the shape that
the operator needs. -/
def Accepts (b : Builtin) (c : Criterion) : Prop :=
  c.field.wellFormed = true ∧ (b = search → c.settled.check = .ok ())

variable {m : Type → Type} [Monad m] {b : Builtin}

/-- An entry that refers to a scope normalises as the criterion of the scope does, written out. -/
theorem format_scope (hb : b.IsSearch) (hscope : StrictSearch.expand q name value = .ok s)
    (haccepts : b.Accepts s) (before after : Dict Json) (context : Context m) :
    b.format q (.obj (before ++ (name, value) :: after)) context =
      b.format q (.obj (before ++ (name, s.encode) :: after)) context := by
  obtain ⟨hfield, hcheck⟩ := haccepts
  rcases hb with rfl | rfl
  · rw [format, format, StrictSearch.encode_normalise_scope hscope hfield (hcheck rfl)]
  · rw [format, format, LenientSearch.encode_normalise_scope hscope hfield]

variable [LawfulMonad m]

/-- A criterion that the hook does not take has no normal form where it is written out. -/
theorem format_written_refused (hb : b.IsSearch) (h : ¬ b.Accepts s) (before after : Dict Json)
    (context : Context m) :
    Yields (fun _ => False)
      (b.format q (.obj (before ++ (name, s.encode) :: after)) context) := by
  have hmem : (name, s.encode) ∈ before ++ (name, s.encode) :: after :=
    List.mem_append_right _ List.mem_cons_self
  rcases hb with rfl | rfl
  · refine yields_liftOutcome ?_
    intro document hdocument
    obtain ⟨criteria, hcriteria, -⟩ := Except.map_ok hdocument
    have hentries : (before ++ (name, s.encode) :: after).mapM (StrictSearch.normaliseEntry q) =
        .ok criteria := hcriteria
    -- the written entry is among the entries, and it is refused
    obtain ⟨y, -, hentry⟩ := Except.mapM_ok_of_mem hentries hmem
    obtain ⟨hfield, hcheck⟩ := StrictSearch.accepts_of_normaliseEntry hentry
    exact h ⟨hfield, fun _ => hcheck⟩
  · refine yields_liftOutcome ?_
    intro document hdocument
    obtain ⟨criteria, hcriteria, -⟩ := Except.map_ok hdocument
    obtain ⟨found, hentries, -⟩ := Except.bind_ok (x :=
      (before ++ (name, s.encode) :: after).mapM (LenientSearch.normaliseEntry q)) hcriteria
    obtain ⟨y, -, hentry⟩ := Except.mapM_ok_of_mem hentries hmem
    exact h ⟨LenientSearch.accepts_of_normaliseEntry hentry, nofun⟩

/-- No query takes the normal form of a request that refers to a scope whose criterion the hook
would not take. -/
theorem run_scope_refused (hb : b.IsSearch) (hscope : StrictSearch.expand q name value = .ok s)
    (hlast : name ∉ Dict.keys after) (h : ¬ b.Accepts s) (context : Context m) :
    Yields (fun document => ∀ r t, b.run r document ≠ .ok t)
      (b.format q (.obj (before ++ (name, value) :: after)) context) := by
  rcases hb with rfl | rfl
  · refine yields_liftOutcome ?_
    intro document hdocument r t hrun
    obtain ⟨criteria, hcriteria, rfl⟩ := Except.map_ok hdocument
    obtain ⟨earlier, later, rfl, hlater⟩ := StrictSearch.normalise_scope hscope hcriteria
    obtain ⟨found, hread, hall⟩ := run_ok hrun
    obtain ⟨hfield, hmem⟩ := Criteria.mem_of_decode_encode (hlater hlast) hread
    -- the shape of its term is looked at now, where the criterion is applied
    exact h ⟨hfield, fun _ => Query.check_of_searchAll hall _ hmem⟩
  · refine yields_liftOutcome ?_
    intro document hdocument r t hrun
    obtain ⟨criteria, hcriteria, rfl⟩ := Except.map_ok hdocument
    obtain ⟨earlier, later, rfl, hlater⟩ := LenientSearch.normalise_scope hscope hcriteria
    obtain ⟨found, hread, -⟩ := run_ok hrun
    exact h ⟨(Criteria.mem_of_decode_encode (hlater hlast) hread).1, nofun⟩

end Builtin

end Listing
