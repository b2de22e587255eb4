import Listing.Entity.Registry

namespace Listing.Entity

/-!
# Names of valid entities

* `validate_iff` — an entity is valid if each of its declared names reads as an identifier;
* `exists_parse_of_isUniqueKey`, `exists_parse_of_computed?` — so do its unique keys and the columns
  of its computed fields.
-/

/-- No name is at fault exactly if all read as identifiers. -/
theorem firstFault_eq_none_iff {names : List String} :
    firstFault names = none ↔ ∀ name ∈ names, ∃ ident, Ident.parse name = .ok ident := by
  rw [firstFault, List.findSome?_eq_none_iff]
  refine forall₂_congr fun name _ => ?_
  cases Ident.parse name <;> simp

/-- An entity is valid if each of its declared names reads as an identifier. -/
theorem validate_iff {e : Entity} :
    e.validate = .ok () ↔ ∀ name ∈ e.declaredNames, ∃ ident, Ident.parse name = .ok ident := by
  rw [← firstFault_eq_none_iff, validate]
  cases firstFault e.declaredNames <;> simp

/-- A unique key is among the names that are checked. -/
theorem mem_declaredNames_of_isUniqueKey {e : Entity} {column : String}
    (h : e.isUniqueKey column = true) : column ∈ e.declaredNames := by
  have hkey : column ∈ e.primaryKey.toList ++ e.uniqueKeys := by
    simpa [isUniqueKey] using h
  have hnames := List.mem_append_left
    (e.associations.flatMap fun entry => [entry.2.ownerKey, entry.2.relatedKey]) hkey
  exact List.mem_cons_of_mem e.table (List.mem_append_left _ hnames)

/-- A unique key of a valid entity reads as an identifier. -/
theorem exists_parse_of_isUniqueKey {e : Entity} {column : String} (he : e.validate = .ok ())
    (h : e.isUniqueKey column = true) : ∃ ident, Ident.parse column = .ok ident :=
  validate_iff.mp he column (mem_declaredNames_of_isUniqueKey h)

/-- So do the columns of its computed fields. -/
theorem exists_parse_of_computed? {e : Entity} (he : e.validate = .ok ()) {name column : String}
    {field : Field} (h : e.computed? name = some field) (hcolumn : column ∈ field.columns) :
    ∃ ident, Ident.parse column = .ok ident := by
  have hmem : column ∈ e.computed.flatMap fun entry => entry.2.columns :=
    List.mem_flatMap.mpr ⟨(name, field), Dict.mem_of_get? h, hcolumn⟩
  exact validate_iff.mp he column (List.mem_cons_of_mem e.table (List.mem_append_right _ hmem))

end Listing.Entity
