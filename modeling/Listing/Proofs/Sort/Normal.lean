import Listing.Proofs.Search.Normal
import Listing.Sort.Lenient

namespace Listing

/-!
# Orderings in normal form

The keys that an ordering is normalised to are written as a list of objects, and normalising these
gives the keys again.  The lenient reading of an object takes a missing direction as it is, the
strict one asks for it, so without a scope it never writes a key without one.

* `Request.Unscoped` — an object without a reference to a scope;
* `StrictSort.item_encode`, `LenientSort.item_encode` — one key, read where it is written;
* `LenientSort.normalise_encode` — all of them, by the lenient reading;
* `StrictSort.normalise_ok`, `LenientSort.normalise_ok` — what is known of all keys of an ordering
  that names no scope;
* `StrictSort.normalise_again`, `LenientSort.normalise_again` — these are normalised to themselves.
-/

/-- The document refers to no scope: it is no object, or none with the key for scopes. -/
def Request.Unscoped (document : Json) : Prop :=
  ∀ fields, document = .obj fields → Dict.get? fields "scope" = none

/-- No item of the ordering refers to a scope. -/
def SortKeys.Unscoped (request : Json) : Prop :=
  Request.Unscoped request ∧ ∀ items, request = .arr items → ∀ item ∈ items, Request.Unscoped item

namespace SortKey

/-- What stands in the document of a key. -/
def fields (key : SortKey) : Dict Json :=
  [("field", key.field.encode), ("assoc", JoinPath.encode key.path)] ++
    (match key.direction with
      | some d => [("order", .str d.wireName)]
      | none => []) ++ [("ci", .bool key.ignoreCase)]

/-- A key is written as a record of its fields. -/
theorem encode_eq (key : SortKey) : key.encode = .obj key.fields := rfl

variable (key : SortKey)

/-- A written key names no scope. -/
theorem get?_fields_scope : Dict.get? key.fields "scope" = none := by
  rw [fields]
  cases key.direction with
  | none => rfl
  | some d => rfl

/-- The field of a written key stands under its name. -/
theorem get?_fields_field : Dict.get? key.fields "field" = some key.field.encode := rfl

/-- Its path does so too. -/
theorem get?_fields_assoc : Dict.get? key.fields "assoc" = some (JoinPath.encode key.path) := rfl

/-- Its direction is written only if it has one. -/
theorem get?_fields_order :
    Dict.get? key.fields "order" = key.direction.map fun d => .str d.wireName := by
  rw [fields]
  cases key.direction with
  | none => rfl
  | some d => rfl

/-- Whether case is ignored is always written. -/
theorem get?_fields_ci : Dict.get? key.fields "ci" = some (.bool key.ignoreCase) := by
  rw [fields]
  cases key.direction with
  | none => rfl
  | some d => rfl

end SortKey

/-- An object that refers to no scope is not replaced by one. -/
theorem StrictSort.expand_eq_none {q : Query} {fields : Dict Json}
    (h : Dict.get? fields "scope" = none) : expand q fields = .ok none := by
  rw [expand, Request.scope, h]
  rfl

/-- The path of a written key is read back. -/
theorem StrictSort.path_fields (key : SortKey) : path key.fields = .ok key.path := by
  rw [path, key.get?_fields_assoc]
  exact JoinPath.parse_encode key.path

namespace StrictSort

/-- The items of an ordering that names no scope name none. -/
theorem unscoped_of_mem_items (hook : String) {request : Json} {documents : List Json}
    (hscope : SortKeys.Unscoped request) (h : items hook request = .ok documents) :
    ∀ document ∈ documents, Request.Unscoped document := by
  cases request with
  | arr items =>
    cases h
    exact hscope.2 documents rfl
  | obj fields =>
    cases h
    exact List.forall_mem_singleton.mpr hscope.1
  | _ => cases h

/-- A key that is read from an object has a well-formed field and a direction. -/
theorem written_ok {fields : Dict Json} {key : SortKey} (h : written fields = .ok key) :
    key.field.wellFormed = true ∧ key.direction.isSome = true := by
  obtain ⟨f, hfield, h⟩ := Except.bind_ok h
  obtain ⟨path, -, h⟩ := Except.bind_ok h
  obtain ⟨direction, -, h⟩ := Except.bind_ok h
  obtain ⟨ignoreCase, -, h⟩ := Except.bind_ok h
  cases h
  refine ⟨?_, rfl⟩
  unfold field at hfield
  split at hfield
  · exact Field.wellFormed_of_parse hfield
  · cases hfield

/-- A key that is read from an item without a scope has a field with its columns and a direction. -/
theorem item_ok {q : Query} {document : Json} {key : SortKey} (hscope : Request.Unscoped document)
    (h : item q document = .ok key) :
    key.field.wellFormed = true ∧ key.direction.isSome = true := by
  obtain ⟨fields, hobject, h⟩ := Except.bind_ok h
  rw [expand_eq_none (hscope fields (Request.object_ok hobject))] at h
  exact written_ok h

/-- The field of a written key is read back. -/
theorem field_fields {key : SortKey} (h : key.field.wellFormed = true) :
    field key.fields = .ok key.field := by
  rw [field, key.get?_fields_field]
  exact Field.parse_encode h

/-- A key that is written refers to no scope. -/
theorem item_eq_written (q : Query) (key : SortKey) : item q key.encode = written key.fields := by
  show (expand q key.fields >>= _) = _
  rw [expand_eq_none key.get?_fields_scope]
  rfl

/-- A key that is written is read again. -/
theorem item_encode (q : Query) {key : SortKey} (hfield : key.field.wellFormed = true)
    (hdirection : key.direction.isSome = true) : item q key.encode = .ok key := by
  obtain ⟨d, hd⟩ := Option.isSome_iff_exists.mp hdirection
  have hdirection : direction key.fields = .ok d := by
    rw [direction, key.get?_fields_order, hd]
    show Direction.parse d.wireName = .ok d
    rw [Direction.parse, Direction.ofName?_wireName]
  have hcase : ignoreCase key.fields = .ok key.ignoreCase := by
    rw [ignoreCase, key.get?_fields_ci]
  rw [item_eq_written, written, field_fields hfield, path_fields, hdirection, hcase]
  -- a key that is read has a direction, and so has the one that is written
  show Except.ok { key with direction := some d } = _
  rw [← hd]

/-- The keys of an ordering that names no scope have well-formed fields and a direction. -/
theorem normalise_ok {q : Query} {request : Json} {keys : List SortKey}
    (hscope : SortKeys.Unscoped request) (h : normalise q request = .ok keys) :
    ∀ key ∈ keys, key.field.wellFormed = true ∧ key.direction.isSome = true := by
  obtain ⟨documents, hitems, h⟩ := Except.bind_ok h
  intro key hkey
  obtain ⟨document, hdocument, hitem⟩ := Except.mapM_ok h key hkey
  have hunscoped := unscoped_of_mem_items "sort" hscope hitems document hdocument
  exact item_ok hunscoped hitem

/-- The keys of an ordering that names no scope are normalised to themselves. -/
theorem normalise_again {q r : Query} {request : Json} {keys : List SortKey}
    (hscope : SortKeys.Unscoped request) (h : normalise q request = .ok keys) :
    normalise r (SortKeys.encode keys) = .ok keys := by
  have hread : ∀ key ∈ keys, item r key.encode = .ok key := by
    intro key hkey
    obtain ⟨hfield, hdirection⟩ := normalise_ok hscope h key hkey
    exact item_encode r hfield hdirection
  have hkeys := Except.mapM_map_ok id hread
  rw [List.map_id] at hkeys
  exact hkeys

end StrictSort

namespace LenientSort

theorem unscoped_of_mem_items {request : Json} {documents : List Json}
    (hscope : SortKeys.Unscoped request) (h : items request = .ok documents) :
    ∀ document ∈ documents, Request.Unscoped document := by
  cases request with
  | str text =>
    cases h
    exact List.forall_mem_singleton.mpr fun fields hfields => nomatch hfields
  | _ => exact StrictSort.unscoped_of_mem_items "legacy_sort" hscope h

/-- A key that is read from a text has a field that is a name. -/
theorem ofText_ok {text : String} {key : SortKey} (h : ofText text = some key) :
    key.field.wellFormed = true := by
  unfold ofText at h
  simp only at h
  split at h
  · cases h
  · split at h
    · cases h
    · cases h
      rfl

theorem written_ok {fields : Dict Json} {key : SortKey} (h : written fields = .ok (some key)) :
    key.field.wellFormed = true := by
  unfold written at h
  split at h
  · cases h
  · obtain ⟨path, -, h⟩ := Except.bind_ok h
    obtain ⟨f, hfield, h⟩ := Except.bind_ok h
    cases h
    exact Field.wellFormed_of_parse hfield

/-- A key that is read from a text or from an object has a well-formed field. -/
theorem item_ok {q : Query} {document : Json} {key : SortKey} (hscope : Request.Unscoped document)
    (h : item q document = .ok (some key)) : key.field.wellFormed = true := by
  cases document with
  | str text => exact ofText_ok (Except.ok.inj h)
  | obj fields =>
    rw [item, StrictSort.expand_eq_none (hscope fields rfl)] at h
    exact written_ok h
  | _ => cases h

/-- A key that is written is read again, with or without a direction. -/
theorem item_encode (q : Query) {key : SortKey} (hfield : key.field.wellFormed = true) :
    item q key.encode = .ok (some key) := by
  rw [key.encode_eq, item, StrictSort.expand_eq_none key.get?_fields_scope]
  show written key.fields = _
  rw [written, key.get?_fields_field]
  simp only
  rw [StrictSort.path_fields, Field.parse_encode hfield, key.get?_fields_order, key.get?_fields_ci]
  obtain ⟨field, path, direction, ignoreCase⟩ := key
  cases direction with
  | none => rfl
  | some d => cases d <;> rfl

/-- The keys of an ordering that names no scope have well-formed fields. -/
theorem normalise_ok {q : Query} {request : Json} {keys : List SortKey}
    (hscope : SortKeys.Unscoped request) (h : normalise q request = .ok keys) :
    ∀ key ∈ keys, key.field.wellFormed = true := by
  obtain ⟨documents, hitems, h⟩ := Except.bind_ok h
  obtain ⟨found, hfound, h⟩ := Except.bind_ok h
  cases h
  intro key hkey
  obtain ⟨document, hdocument, hitem⟩ := Except.mapM_ok hfound (some key) (by simpa using hkey)
  exact item_ok (unscoped_of_mem_items hscope hitems document hdocument) hitem

/-- The document of keys with well-formed fields is normalised to these keys. -/
theorem normalise_encode (q : Query) {keys : List SortKey}
    (h : ∀ key ∈ keys, key.field.wellFormed = true) :
    normalise q (SortKeys.encode keys) = .ok keys := by
  have hread : ∀ key ∈ keys, item q key.encode = .ok (some key) :=
    fun key hkey => item_encode q (h key hkey)
  show ((keys.map SortKey.encode).mapM (item q) >>= fun keys => .ok (keys.filterMap id)) = _
  rw [Except.mapM_map_ok some hread]
  show Except.ok ((keys.map some).filterMap id) = _
  simp

/-- The keys of an ordering that names no scope are normalised to themselves. -/
theorem normalise_again {q r : Query} {request : Json} {keys : List SortKey}
    (hscope : SortKeys.Unscoped request) (h : normalise q request = .ok keys) :
    normalise r (SortKeys.encode keys) = .ok keys := normalise_encode r (normalise_ok hscope h)

end LenientSort

end Listing
