import Listing.Proofs.Sort.Normal
import Listing.Stage.Handler

namespace Listing

/-!
# Scopes of an ordering

An item of an ordering is written out, or refers to a scope, which makes a key.  The key of a scope
may have no direction; then it orders nothing, and its document has none either.  The lenient
reading takes such a document, the strict one asks for the direction: what it has normalised itself
it normalises again only if no scope left the direction out.

* `Entity.SortScopesFormed` — the scopes for orderings make keys of well-formed fields;
* `StrictSort.key_of_item`, `LenientSort.wellFormed_of_item` — what is known of the key of an item;
* `StrictSort.normalise_encode` — what comes of normalising the document of some keys strictly;
* `LenientSort.normalise_again_scoped` — a lenient ordering is normalised to itself all the same;
* `Builtin.sort_again` — what comes of normalising twice;
* `Builtin.undirected_refused` — a scope whose key is refused the second time.
-/

/-- The keys that the scopes for orderings make have well-formed fields. -/
def Entity.SortScopesFormed (e : Entity) : Prop :=
  ∀ name scope value key, e.sortScope name = .ok scope → scope value = .ok key →
    key.field.wellFormed = true

variable {q r : Query} {fields : Dict Json} {document request : Json} {key : SortKey}
  {keys : List SortKey}

/-! ### Keys of items -/

namespace StrictSort

/-- A key that a scope makes has a field with its columns. -/
theorem wellFormed_of_expand (hscopes : q.entity.SortScopesFormed)
    (h : expand q fields = .ok (some key)) : key.field.wellFormed = true := by
  obtain ⟨reference, -, h⟩ := Except.bind_ok h
  cases reference with
  | none => cases h
  | some reference =>
    obtain ⟨scope, hscope, h⟩ := Except.bind_ok h
    obtain ⟨made, hmade, h⟩ := Except.bind_ok h
    cases h
    exact hscopes _ _ _ _ hscope hmade

/-- The key of an item has a well-formed field, and a direction unless a scope made it. -/
theorem key_of_item (hscopes : q.entity.SortScopesFormed) (h : item q document = .ok key) :
    key.field.wellFormed = true ∧ (key.direction = none →
      ∃ fields, document = .obj fields ∧ expand q fields = .ok (some key)) := by
  obtain ⟨fields, hobject, h⟩ := Except.bind_ok h
  obtain ⟨made, hmade, h⟩ := Except.bind_ok h
  cases made with
  | some made =>
    cases h
    exact ⟨wellFormed_of_expand hscopes hmade, fun _ => ⟨fields, Request.object_ok hobject, hmade⟩⟩
  | none =>
    obtain ⟨hfield, hdirection⟩ := written_ok h
    refine ⟨hfield, fun hnone => ?_⟩
    rw [hnone] at hdirection
    cases hdirection

/-- A key that is written without a direction is not read. -/
theorem item_encode_undirected (q : Query) (hfield : key.field.wellFormed = true)
    (hnone : key.direction = none) :
    item q key.encode = .error (.missingKey "sort" "order") := by
  have hdirection : direction key.fields = .error (.missingKey "sort" "order") := by
    rw [direction, key.get?_fields_order, hnone]
    rfl
  rw [item_eq_written, written, field_fields hfield, path_fields, hdirection]
  rfl

/-- The document of some keys is normalised to these keys, or refused for the first of them that has
no direction. -/
theorem normalise_encode (q : Query) (h : ∀ key ∈ keys, key.field.wellFormed = true) :
    normalise q (SortKeys.encode keys) =
      if keys.all fun key => key.direction.isSome then .ok keys
      else .error (.missingKey "sort" "order") := by
  show (keys.map SortKey.encode).mapM (item q) = _
  induction keys with
  | nil => rfl
  | cons key rest ih =>
    obtain ⟨hkey, hrest⟩ := List.forall_mem_cons.mp h
    rw [List.map_cons, List.mapM_cons, ih hrest, List.all_cons]
    cases hdirection : key.direction with
    | none =>
      rw [item_encode_undirected q hkey hdirection]
      rfl
    | some d =>
      rw [item_encode q hkey (hdirection ▸ rfl)]
      -- now it is the rest that decides
      cases rest.all fun key => key.direction.isSome <;> rfl

/-- The keys of an ordering have well-formed fields, and directions unless scopes made them. -/
theorem key_of_normalise (hscopes : q.entity.SortScopesFormed)
    (h : normalise q request = .ok keys) :
    ∀ key ∈ keys, key.field.wellFormed = true ∧ (key.direction = none →
      ∃ documents fields, items "sort" request = .ok documents ∧ .obj fields ∈ documents ∧
        expand q fields = .ok (some key)) := by
  obtain ⟨documents, hitems, h⟩ := Except.bind_ok h
  intro key hkey
  obtain ⟨document, hdocument, hitem⟩ := Except.mapM_ok h key hkey
  obtain ⟨hfield, hmade⟩ := key_of_item hscopes hitem
  refine ⟨hfield, fun hnone => ?_⟩
  obtain ⟨fields, rfl, hexpand⟩ := hmade hnone
  exact ⟨documents, fields, hitems, hdocument, hexpand⟩

end StrictSort

namespace LenientSort

/-- So has a key that is read from an item. -/
theorem wellFormed_of_item (hscopes : q.entity.SortScopesFormed)
    (h : item q document = .ok (some key)) : key.field.wellFormed = true := by
  cases document with
  | str text => exact ofText_ok (Except.ok.inj h)
  | obj fields =>
    obtain ⟨made, hmade, h⟩ := Except.bind_ok h
    cases made with
    | some made =>
      cases h
      exact StrictSort.wellFormed_of_expand hscopes hmade
    | none => exact written_ok h
  | _ => cases h

/-- The keys of a lenient ordering are normalised to themselves, those of scopes included. -/
theorem normalise_again_scoped (hscopes : q.entity.SortScopesFormed) (r : Query)
    (h : normalise q request = .ok keys) : normalise r (SortKeys.encode keys) = .ok keys := by
  obtain ⟨documents, hitems, h⟩ := Except.bind_ok h
  obtain ⟨found, hfound, h⟩ := Except.bind_ok h
  cases h
  refine normalise_encode r fun key hkey => ?_
  obtain ⟨document, -, hitem⟩ := Except.mapM_ok hfound (some key) (by simpa using hkey)
  exact wellFormed_of_item hscopes hitem

end LenientSort

/-! ### Hooks -/

namespace Builtin

variable {m : Type → Type} [Monad m]

/-- **Directed orderings stay normal.** An ordering that `Builtin.sort` has normalised, and
normalises again, stays as it is if all its keys have a direction.  If one has none, it is refused
the second time: that key is of a scope (`StrictSort.expand`), and orders nothing. -/
theorem sort_again (hscopes : q.entity.SortScopesFormed)
    (h : StrictSort.normalise q request = .ok keys) (context : Context m) :
    sort.format q request context = pure (SortKeys.encode keys) ∧
    (∀ r, sort.format r (SortKeys.encode keys) context =
      if keys.all fun key => key.direction.isSome then pure (SortKeys.encode keys)
      else throw (.missingKey "sort" "order")) ∧
    ∀ key ∈ keys, key.direction = none →
      (∃ documents fields, StrictSort.items "sort" request = .ok documents ∧
        .obj fields ∈ documents ∧ StrictSort.expand q fields = .ok (some key)) ∧
      ∀ r : Query, r.sort key = .ok r := by
  -- keys come from scopes or from records, and only a scope can leave out the direction
  have hkeys := StrictSort.key_of_normalise hscopes h
  refine ⟨?_, ?_, ?_⟩
  · rw [format, h]
    rfl
  · intro r
    rw [format, StrictSort.normalise_encode r fun key hkey => (hkeys key hkey).1]
    cases keys.all fun key => key.direction.isSome <;> rfl
  · intro key hkey hnone
    refine ⟨(hkeys key hkey).2 hnone, fun r => ?_⟩
    rw [Query.sort, hnone]

/-- Products with a scope for an ordering by their names, in a direction that may be missing. -/
def namedProduct : Entity :=
  (Entity.empty "product" "products").withSortScope "byName" fun direction =>
    .ok ⟨.column "name", [], direction.text?.bind Direction.ofName?, false⟩

/-- All products with a name. -/
def namedProducts : Query :=
  ⟨Registry.empty.insert namedProduct rfl, ⟨⟨'p', 0⟩, "product"⟩, namedProduct, [], [], [], none,
    none, none⟩

/-- The scopes of the product are of this kind. -/
theorem sortScopesFormed_namedProduct : namedProduct.SortScopesFormed := by
  intro name scope value key hscope hkey
  rw [Entity.sortScope, Entity.scope] at hscope
  split at hscope
  · rename_i made hmade
    cases hscope
    rw [show namedProduct.sortScopes = [("byName", _)] from rfl, Dict.get?, List.lookup_cons]
      at hmade
    split at hmade
    · cases hmade
      cases hkey
      rfl
    · cases hmade
  · cases hscope

/-- No repository, and ten rows a page. -/
def plainContext : Context Id := ⟨none, 10⟩

/-- A reference to the scope with a direction is normalised once and for all. -/
theorem sort_again_named :
    ∃ document, sort.format namedProducts
        (.obj [("scope", .str "byName"), ("value", .str "desc")]) plainContext = pure document ∧
      sort.format namedProducts document plainContext = pure document := by
  have hkeys : StrictSort.normalise namedProducts
      (.obj [("scope", .str "byName"), ("value", .str "desc")]) =
        .ok [⟨.column "name", [], some .desc, false⟩] := rfl
  obtain ⟨honce, htwice, -⟩ := sort_again sortScopesFormed_namedProduct hkeys plainContext
  exact ⟨_, honce, htwice namedProducts⟩

/-- **An undirected scope is refused.** A reference to the scope without a direction is normalised,
its document is applied, and `Builtin.lenientSort` leaves it as it is; but `Builtin.sort` refuses
it. -/
theorem undirected_refused :
    ∃ document, sort.format namedProducts (.obj [("scope", .str "byName")]) plainContext =
        pure document ∧
      sort.format namedProducts document plainContext = throw (.missingKey "sort" "order") ∧
      sort.format namedProducts document plainContext ≠ pure document ∧
      lenientSort.format namedProducts document plainContext = pure document ∧
      sort.run namedProducts document = .ok namedProducts := by
  refine ⟨_, rfl, rfl, ?_, rfl, rfl⟩
  exact nofun

end Builtin

end Listing
