import Listing.Proofs.Search.Eager
import Listing.Proofs.Stage.Lenience

namespace Listing

/-!
# What a lenient search leaves out

A lenient search leaves out an object without a known operator, without a term or with an unknown
combination, whatever else the object holds.  That is all it leaves out: an object that has the
three is read, and if its field, its path or its term cannot be read, the request fails as a whole.

* `LenientSearch.Wanted` — what keeps an object from being left out;
* `LenientSearch.Faulty` — an object that is not left out and cannot be read;
* `LenientSearch.readable` — the criteria of the objects that can be read, in order;
* `LenientSearch.entry_eq_none_iff`, `LenientSearch.entry_eq_some_iff`,
  `LenientSearch.entry_eq_error_iff` — what becomes of one object;
* `LenientSearch.normalise_objects`, `LenientSearch.normalise_fault` — what becomes of a request;
* `Builtin.lenient_search_of_objects` — the parameters that a lenient search makes of objects;
* `Builtin.lenient_search_refuses_field` — a field that cannot be read fails a request.
-/

/-- The operator of a name is the one that has it. -/
theorem SearchOperator.ofName?_eq_some_iff {name : String} {op : SearchOperator} :
    ofName? name = some op ↔ name = op.wireName := by
  constructor
  · intro h
    obtain ⟨op', -, heq⟩ := List.mem_map.mp (Dict.mem_of_get? h)
    cases heq
    rfl
  · rintro rfl
    exact ofName?_wireName op

namespace StrictSearch

variable {hook name : String} {fields : Dict Json} {c : Criterion}

/-- An object is read if each of its parts is. -/
theorem unchecked_eq_ok_iff :
    unchecked hook name fields = .ok c ↔
      field name fields = .ok c.field ∧ path fields = .ok c.path ∧
        operator hook fields = .ok c.operator ∧ term hook fields = .ok c.term ∧
        combine? fields = .ok c.combine := by
  constructor
  · intro h
    obtain ⟨f, hfield, h⟩ := Except.bind_ok h
    obtain ⟨p, hpath, h⟩ := Except.bind_ok h
    obtain ⟨op, hoperator, h⟩ := Except.bind_ok h
    obtain ⟨t, hterm, h⟩ := Except.bind_ok h
    obtain ⟨combine, hcombine, h⟩ := Except.bind_ok h
    cases h
    exact ⟨hfield, hpath, hoperator, hterm, Except.mapError_ok hcombine⟩
  · rintro ⟨hfield, hpath, hoperator, hterm, hcombine⟩
    rw [unchecked, hfield, hpath, hoperator, hterm, hcombine]
    rfl

/-- An operator that is named is read. -/
theorem operator_of_get? {op : SearchOperator}
    (h : Dict.get? fields "search_type" = some (.str op.wireName)) :
    operator hook fields = .ok op := by
  rw [operator, h]
  exact SearchOperator.parse_wireName op

end StrictSearch

namespace LenientSearch

/-! ### One object -/

/-- What keeps an object from being left out: the name of an operator, a term, whatever it is, and
a combination that is known or not given. -/
structure Wanted (fields : Dict Json) : Prop where
  operator : ∃ op : SearchOperator, Dict.get? fields "search_type" = some (.str op.wireName)
  term : ∃ value, Dict.get? fields "search_term" = some value
  combine : ∃ combine, StrictSearch.combine? fields = .ok combine

/-- Why an object that is not left out cannot be read: the first fault in the order field, path,
term. -/
inductive Fault (name : String) (fields : Dict Json) : Error → Prop
  | field {e : Error} (hfield : StrictSearch.field name fields = .error e) : Fault name fields e
  | path {f : Field} {e : Error} (hfield : StrictSearch.field name fields = .ok f)
      (hpath : StrictSearch.path fields = .error e) : Fault name fields e
  | term {f : Field} {p : JoinPath} {value : Json} {e : Error}
      (hfield : StrictSearch.field name fields = .ok f) (hpath : StrictSearch.path fields = .ok p)
      (hvalue : Dict.get? fields "search_term" = some value)
      (hterm : Request.term value = .error e) : Fault name fields e

/-- An object fails a request if it is not left out and cannot be read. -/
structure Faulty (name : String) (fields : Dict Json) (e : Error) : Prop where
  wanted : Wanted fields
  fault : Fault name fields e

variable {hook name : String} {fields : Dict Json} {c : Criterion} {e : Error}

/-- The operator of an object is the one that it names. -/
theorem operator?_eq_some_iff {op : SearchOperator} :
    operator? fields = some op ↔ Dict.get? fields "search_type" = some (.str op.wireName) := by
  constructor
  · intro h
    obtain ⟨name, htext, hname⟩ := Option.bind_eq_some_iff.mp h
    obtain ⟨value, hvalue, hstring⟩ := Option.bind_eq_some_iff.mp htext
    obtain rfl := SearchOperator.ofName?_eq_some_iff.mp hname
    cases value with
    | str s =>
      cases hstring
      exact hvalue
    | _ => cases hstring
  · intro h
    rw [operator?, h]
    exact SearchOperator.ofName?_wireName op

/-- The criterion of an object that is not left out. -/
theorem entry_of_wanted {op : SearchOperator} {value : Json} {combine : Combine}
    (hoperator : Dict.get? fields "search_type" = some (.str op.wireName))
    (hvalue : Dict.get? fields "search_term" = some value)
    (hcombine : StrictSearch.combine? fields = .ok combine) :
    entry name fields = (do
      let field ← StrictSearch.field name fields
      let path ← StrictSearch.path fields
      let term ← Request.term value
      return some ⟨field, path, op, term, combine⟩) := by
  rw [entry, operator?_eq_some_iff.mpr hoperator, hvalue, hcombine]

/-- An object that lacks one of the three is left out, whatever else it holds. -/
theorem entry_of_not_wanted (h : ¬ Wanted fields) : entry name fields = .ok none := by
  unfold entry
  split
  · rename_i op value combine hoperator hvalue hcombine
    exact absurd ⟨⟨op, operator?_eq_some_iff.mp hoperator⟩, ⟨value, hvalue⟩,
      ⟨combine, hcombine⟩⟩ h
  · rfl

/-- An object with a fault fails, where it is not left out. -/
theorem entry_of_faulty (h : Faulty name fields e) : entry name fields = .error e := by
  obtain ⟨⟨⟨op, hoperator⟩, ⟨value, hvalue⟩, combine, hcombine⟩, hfault⟩ := h
  rw [entry_of_wanted hoperator hvalue hcombine]
  -- the parts before the faulty one have been read by then
  cases hfault with
  | field hfield => rw [hfield]; rfl
  | path hfield hpath => rw [hfield, hpath]; rfl
  | term hfield hpath hfound hterm =>
    obtain rfl : value = _ := Option.some.inj (hvalue.symm.trans hfound)
    rw [hfield, hpath, hterm]
    rfl

/-- An object that can be read is a criterion of a lenient search. -/
theorem entry_of_unchecked (h : StrictSearch.unchecked hook name fields = .ok c) :
    entry name fields = .ok (some c) := by
  obtain ⟨hfield, hpath, hoperator, hterm, hcombine⟩ := StrictSearch.unchecked_eq_ok_iff.mp h
  obtain ⟨value, hvalue, hread⟩ := StrictSearch.term_ok hterm
  have hnamed := operator?_eq_some_iff.mp (StrictSearch.operator?_of_operator hoperator)
  rw [entry_of_wanted hnamed hvalue hcombine, hfield, hpath, hread]
  rfl

/-- An object that is not left out is read or has a fault. -/
theorem unchecked_or_faulty (hook name : String) (h : Wanted fields) :
    (∃ c, StrictSearch.unchecked hook name fields = .ok c) ∨ ∃ e, Faulty name fields e := by
  obtain ⟨op, hoperator⟩ := h.operator
  obtain ⟨value, hvalue⟩ := h.term
  obtain ⟨combine, hcombine⟩ := h.combine
  have hread : StrictSearch.term hook fields = Request.term value := by
    rw [StrictSearch.term, hvalue]
  -- field, path and term in the order in which they are read, since the first fault is given
  cases hfield : StrictSearch.field name fields with
  | error e => exact .inr ⟨e, h, .field hfield⟩
  | ok f =>
    cases hpath : StrictSearch.path fields with
    | error e => exact .inr ⟨e, h, .path hfield hpath⟩
    | ok p =>
      cases hterm : Request.term value with
      | error e => exact .inr ⟨e, h, .term hfield hpath hvalue hterm⟩
      | ok t =>
        refine .inl ⟨⟨f, p, op, t, combine⟩, StrictSearch.unchecked_eq_ok_iff.mpr ?_⟩
        exact ⟨hfield, hpath, StrictSearch.operator_of_get? hoperator,
          hread.trans hterm, hcombine⟩

/-- Every object is left out, kept or a failure, as it says itself. -/
theorem entry_cases (hook name : String) (fields : Dict Json) :
    (¬ Wanted fields ∧ entry name fields = .ok none) ∨
      (∃ c, StrictSearch.unchecked hook name fields = .ok c ∧ entry name fields = .ok (some c)) ∨
      ∃ e, Faulty name fields e ∧ entry name fields = .error e := by
  by_cases hwanted : Wanted fields
  · rcases unchecked_or_faulty hook name hwanted with ⟨c, hread⟩ | ⟨e, hfaulty⟩
    · exact .inr (.inl ⟨c, hread, entry_of_unchecked hread⟩)
    · exact .inr (.inr ⟨e, hfaulty, entry_of_faulty hfaulty⟩)
  · exact .inl ⟨hwanted, entry_of_not_wanted hwanted⟩

/-- Left out is what lacks one of the three, and nothing else. -/
theorem entry_eq_none_iff : entry name fields = .ok none ↔ ¬ Wanted fields := by
  refine ⟨fun h => ?_, entry_of_not_wanted⟩
  rcases entry_cases "search" name fields with ⟨hout, -⟩ | ⟨c, -, hkept⟩ | ⟨e, -, hfailed⟩
  · exact hout
  · cases h.symm.trans hkept
  · cases h.symm.trans hfailed

/-- Kept is what can be read. -/
theorem entry_eq_some_iff :
    entry name fields = .ok (some c) ↔ StrictSearch.unchecked hook name fields = .ok c := by
  refine ⟨fun h => ?_, entry_of_unchecked⟩
  rcases entry_cases hook name fields with ⟨-, hout⟩ | ⟨d, hread, hkept⟩ | ⟨e, -, hfailed⟩
  · cases h.symm.trans hout
  · cases h.symm.trans hkept
    exact hread
  · cases h.symm.trans hfailed

/-- A failure is what has the three and a fault. -/
theorem entry_eq_error_iff : entry name fields = .error e ↔ Faulty name fields e := by
  refine ⟨fun h => ?_, entry_of_faulty⟩
  rcases entry_cases "search" name fields with ⟨-, hout⟩ | ⟨c, -, hkept⟩ | ⟨e', hfaulty, hfailed⟩
  · cases h.symm.trans hout
  · cases h.symm.trans hkept
  · cases h.symm.trans hfailed
    exact hfaulty

/-! ### Requests of objects -/

/-- A request with an object under every name, hence without a reference to a scope. -/
def objects (entries : List (String × Dict Json)) : Json :=
  .obj (entries.map fun x => (x.1, .obj x.2))

/-- The criterion of an object under a name, if it can be read. -/
def readable? (x : String × Dict Json) : Option (String × Criterion) :=
  (StrictSearch.unchecked "search" x.1 x.2).toOption.map fun c => (x.1, c)

/-- The criteria of the objects that can be read, in order. -/
def readable (entries : List (String × Dict Json)) : Criteria := entries.filterMap readable?

variable {q : Query} {entries : List (String × Dict Json)} {x : String × Dict Json}

/-- The reading of an object that is kept is its criterion, any other gives none. -/
theorem readable?_eq (x : String × Dict Json) :
    readable? x = ((entry x.1 x.2).toOption.getD none).map fun c => (x.1, c) := by
  rw [readable?]
  cases hread : StrictSearch.unchecked "search" x.1 x.2 with
  | ok c => rw [entry_of_unchecked hread]; rfl
  | error e =>
    rcases entry_cases "search" x.1 x.2 with ⟨-, hout⟩ | ⟨c, hc, -⟩ | ⟨e', -, hfailed⟩
    · rw [hout]; rfl
    · cases hread.symm.trans hc
    · rw [hfailed]; rfl

/-- What cannot be read is left out, or it is a fault. -/
theorem readable?_eq_none_iff :
    readable? x = none ↔ ¬ Wanted x.2 ∨ ∃ e, Faulty x.1 x.2 e := by
  have hout : ¬ Wanted x.2 ↔ entry x.1 x.2 = .ok none := entry_eq_none_iff.symm
  simp only [readable?_eq, hout, ← entry_eq_error_iff]
  cases entry x.1 x.2 with
  | error e => simp [Except.toOption]
  | ok found => simp [Except.toOption]

/-- An entry with a record is normalised by its fields. -/
theorem normaliseEntry_obj (q : Query) (x : String × Dict Json) :
    normaliseEntry q (x.1, .obj x.2) =
      (entry x.1 x.2).map fun found => found.map fun c => (x.1, c) := by
  rw [normaliseEntry]
  simp only
  cases entry x.1 x.2 <;> rfl

/-- Objects that do not fail make the criteria of those that can be read. -/
theorem mapM_normaliseEntry (h : ∀ x ∈ entries, ∀ e, ¬ Faulty x.1 x.2 e) :
    (entries.map fun x => (x.1, Json.obj x.2)).mapM (normaliseEntry q) =
      .ok (entries.map readable?) := by
  refine Except.mapM_map_ok readable? fun x hx => ?_
  rw [normaliseEntry_obj]
  cases hentry : entry x.1 x.2 with
  | ok found => rw [readable?_eq, hentry]; rfl
  | error e => exact absurd (entry_eq_error_iff.mp hentry) (h x hx e)

/-- A request in which no object fails is the criteria of those that can be read. -/
theorem normalise_objects (h : ∀ x ∈ entries, ∀ e, ¬ Faulty x.1 x.2 e) :
    normalise q (objects entries) = .ok (readable entries) := by
  show ((entries.map fun x => (x.1, Json.obj x.2)).mapM (normaliseEntry q) >>= _) = _
  rw [mapM_normaliseEntry h]
  show Except.ok ((entries.map readable?).filterMap id) = _
  rw [List.filterMap_map, readable]
  rfl

/-- The first object that fails is what the request fails with. -/
theorem normalise_fault {before after : List (String × Dict Json)}
    (hbefore : ∀ y ∈ before, ∀ e, ¬ Faulty y.1 y.2 e) (hx : Faulty x.1 x.2 e) :
    normalise q (objects (before ++ x :: after)) = .error e := by
  have hfirst : normaliseEntry q (x.1, .obj x.2) = .error e := by
    rw [normaliseEntry_obj, entry_of_faulty hx]
    rfl
  -- the objects before it make their criteria, those after it are not looked at
  show (((before ++ x :: after).map fun y => (y.1, Json.obj y.2)).mapM (normaliseEntry q) >>= _) = _
  rw [List.map_append, List.map_cons, List.mapM_append, mapM_normaliseEntry hbefore,
    List.mapM_cons, hfirst]
  rfl

end LenientSearch

namespace Builtin

open LenientSearch

variable {m : Type → Type} [Monad m]

/-- **Lenient searches drop or fail.** Of a request with an object under every name,
`Builtin.lenientSearch` keeps, in order, the criteria of the objects that can be read (`readable`),
provided that none fails (`Faulty`); else the request fails with the first of them.  An object that
cannot be read is left out if it has no known operator, no term or an unknown combination, and only
then (`Wanted`): for its field, its path or its term it fails the whole request. -/
theorem lenient_search_of_objects (q : Query) (entries : List (String × Dict Json))
    (context : Context m) :
    ((∀ x ∈ entries, ∀ e, ¬ Faulty x.1 x.2 e) →
      lenientSearch.format q (objects entries) context = pure (readable entries).encode) ∧
    (∀ before x after e, entries = before ++ x :: after →
      (∀ y ∈ before, ∀ e, ¬ Faulty y.1 y.2 e) → Faulty x.1 x.2 e →
      lenientSearch.format q (objects entries) context = throw e) ∧
    ∀ x, readable? x = none ↔ ¬ Wanted x.2 ∨ ∃ e, Faulty x.1 x.2 e := by
  refine ⟨fun h => ?_, ?_, fun x => readable?_eq_none_iff⟩
  · rw [format, normalise_objects h]
    rfl
  · rintro before x after e rfl hbefore hx
    rw [format, normalise_fault hbefore hx]
    rfl

/-- Cheap pens: the objects beside the one for the name lack an operator that is known, a term, and
a combination that is known. -/
def cheapPens : List (String × Dict Json) :=
  [("sku", [("search_type", .str "matches"), ("search_term", .str "A-1"), ("field", .int 5)]),
    ("name", [("search_type", .str "like"), ("search_term", .str "pen"),
      ("assoc", .arr [.str "category"])]),
    ("price", [("search_type", .str "lteq"), ("assoc", .int 5)]),
    ("stock", [("search_type", .str "gt"), ("search_term", .obj []),
      ("search_expr", .str "xor_where")])]

/-- A price whose field is a number. -/
def numberedField : String × Dict Json :=
  ("price", [("field", .int 5), ("search_type", .str "lteq"), ("search_term", .int 10)])

/-- A number is no field. -/
theorem numberedField_faulty :
    Faulty numberedField.1 numberedField.2 (.invalidParams (.notAField (.int 5))) :=
  ⟨⟨⟨.lteq, rfl⟩, ⟨.int 10, rfl⟩, ⟨.and, rfl⟩⟩, .field rfl⟩

/-- Of the cheap pens the name is kept; with the numbered field after them nothing is. -/
theorem lenient_search_of_pens :
    lenientSearch.format .products (objects cheapPens) bareContext =
      pure (Criteria.encode [("name", ⟨.column "name", [⟨.inner, "category"⟩], .like,
        .text "pen", .and⟩)]) ∧
    lenientSearch.format .products (objects (cheapPens ++ [numberedField])) bareContext =
      throw (.invalidParams (.notAField (.int 5))) := by
  have hnone : ∀ x ∈ cheapPens, ∀ e, ¬ Faulty x.1 x.2 e := by
    -- each of the other entries is kept or dropped
    have hread : ∀ x ∈ cheapPens, ∃ found, entry x.1 x.2 = .ok found := by
      simp only [cheapPens, List.forall_mem_cons]
      exact ⟨⟨_, rfl⟩, ⟨_, rfl⟩, ⟨_, rfl⟩, ⟨_, rfl⟩, by simp⟩
    intro x hx e hfaulty
    obtain ⟨found, hfound⟩ := hread x hx
    cases hfound.symm.trans (entry_of_faulty hfaulty)
  exact ⟨(lenient_search_of_objects .products cheapPens bareContext).1 hnone,
    (lenient_search_of_objects .products _ bareContext).2.1 cheapPens numberedField [] _ rfl
      hnone numberedField_faulty⟩

/-- **A field is not dropped.** The field of a price is a number, which the search cannot
understand.  The price could be left out, as there is nothing else to the request, but the request
fails. -/
theorem lenient_search_refuses_field :
    readable [numberedField] = [] ∧
    ∀ document, lenientSearch.format .products (objects [numberedField]) bareContext ≠
      pure document := by
  refine ⟨rfl, fun document h => ?_⟩
  cases h

end Builtin

end Listing
