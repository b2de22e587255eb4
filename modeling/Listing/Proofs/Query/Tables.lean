import Listing.Proofs.Entity.Valid
import Listing.Proofs.Ident
import Listing.Proofs.Query.Deferred

namespace Listing

/-!
# Tables of queries

The tables that a statement names are those of registered entities, which read as identifiers, and
the stand-ins for relations that are not known, which are made to.  Between them are associations
to an entity that is not registered: the relation itself becomes the table, and nothing has read it.

* `Ident.Reads` — texts that identifiers are read from;
* `Query.tables`, `Query.name_mem_fromTokens` — the tables that the statements of a query name;
* `Registry.Dangling` — joins along an association to an entity that is not registered;
* `Query.reads_or_dangling` — every table reads as an identifier, but for those of such joins;
* `Query.tables_read` — a registry all of whose queries name identifiers.
-/

/-- An identifier is read from the text. -/
def Ident.Reads (text : String) : Prop := ∃ ident, Ident.parse text = .ok ident

namespace Query

/-- The tables that the statements of a query name: that of its base, and those of its joins. -/
def tables (q : Query) : List String := q.entity.table :: q.joins.map Join.table

/-- Each of them stands as a name among the row sources of both statements. -/
theorem name_mem_fromTokens {q : Query} {table : String} (h : table ∈ q.tables) :
    Sql.Token.name table ∈ q.fromTokens := by
  rcases List.mem_cons.mp h with rfl | hjoined
  · simp [fromTokens, aliased]
  · obtain ⟨j, hj, rfl⟩ := List.mem_map.mp hjoined
    have hname : Sql.Token.name j.table ∈ j.tokens := by simp [Join.tokens, aliased]
    refine List.mem_cons_of_mem _ (List.mem_append_right _ ?_)
    exact List.mem_flatMap.mpr ⟨j, hj, hname⟩

/-- The stand-in for a relation that is not known reads as an identifier. -/
theorem reads_tableOfUnknown (relation : String) : Ident.Reads (tableOfUnknown relation) := by
  unfold tableOfUnknown
  split
  · rename_i ident hident
    rw [Ident.text_of_parse hident]
    exact ⟨ident, hident⟩
  · exact ⟨.bare "invalid", by decide +kernel⟩

end Query

/-- The table of a valid entity reads as an identifier. -/
theorem Entity.reads_table {e : Entity} (h : e.validate = .ok ()) : Ident.Reads e.table :=
  validate_iff.mp h e.table List.mem_cons_self

namespace Registry

variable {r : Registry} {j : JoinRequest}

/-- The relation is an association of the entity, but its target is not registered. -/
def Dangling (r : Registry) (j : JoinRequest) : Prop :=
  ∃ source a, r.get? j.entity = some source ∧ source.association? j.relation = some a ∧
    r.get? a.target = none

/-- A request dangles exactly if its association leads to no registered entity. -/
theorem dangling_iff : r.Dangling j ↔ ∃ a, r.association? j = some a ∧ r.get? a.target = none := by
  constructor
  · rintro ⟨source, a, hsource, hrelation, htarget⟩
    exact ⟨a, association?_eq_some_iff.mpr ⟨source, hsource, hrelation⟩, htarget⟩
  · rintro ⟨a, ha, htarget⟩
    obtain ⟨source, hsource, hrelation⟩ := association?_eq_some_iff.mp ha
    exact ⟨source, a, hsource, hrelation, htarget⟩

/-- The relation of such a join is taken for a table. -/
theorem tableOf_of_dangling (h : r.Dangling j) : r.tableOf j = j.relation := by
  obtain ⟨a, ha, htarget⟩ := dangling_iff.mp h
  rw [tableOf, ha]
  simp only
  rw [htarget]

/-- Such a join cannot be made. -/
theorem not_joinable_of_dangling (h : r.Dangling j) : ¬ r.Joinable j := by
  obtain ⟨a, ha, htarget⟩ := dangling_iff.mp h
  rintro ⟨source, b, hsource, hrelation, hcontains⟩
  have hb : r.association? j = some b := association?_eq_some_iff.mpr ⟨source, hsource, hrelation⟩
  rw [ha] at hb
  cases hb
  rw [contains, htarget] at hcontains
  cases hcontains

/-- The table of any other join reads as an identifier. -/
theorem reads_tableOf (h : ¬ r.Dangling j) : Ident.Reads (r.tableOf j) := by
  unfold tableOf
  cases ha : r.association? j with
  | none => exact Query.reads_tableOfUnknown j.relation
  | some a =>
    simp only
    cases htarget : r.get? a.target with
    | some target => exact Entity.reads_table (validate_of_get? htarget)
    | none => exact absurd (dangling_iff.mpr ⟨a, ha, htarget⟩) h

end Registry

namespace Query

variable {registry : Registry} {name : String} {edits : List Edit} {start q : Query}

/-- Every table of a query reads as an identifier, or a join along an association to an entity that
is not registered was asked for and left its relation as the table; then the query is not valid. -/
theorem reads_or_dangling (hstart : ofEntity registry name = .ok start)
    (hedits : start.editAll edits = .ok q) : ∀ table ∈ q.tables,
      Ident.Reads table ∨ (q.validate ≠ .ok () ∧
        ∃ j ∈ edits.flatMap (Edit.requests registry name), registry.Dangling j ∧
          table = j.relation) := by
  obtain ⟨hentity, htables, -⟩ := history_ok hstart hedits
  have hvalid := validate_eq_ok_iff_joinable hstart hedits
  intro table htable
  rcases List.mem_cons.mp htable with rfl | hjoined
  · exact .inl (Entity.reads_table (Registry.validate_of_get? hentity))
  · rw [htables] at hjoined
    obtain ⟨j, hj, rfl⟩ := List.mem_map.mp hjoined
    -- a table is declared by its entity, unless the relation dangles
    by_cases hdangling : registry.Dangling j
    · right
      refine ⟨?_, j, hj, hdangling, Registry.tableOf_of_dangling hdangling⟩
      intro hok
      exact Registry.not_joinable_of_dangling hdangling (hvalid.mp hok j hj)
    · exact .inl (Registry.reads_tableOf hdangling)

/-- Joining along such an association makes the relation a table. -/
theorem relation_mem_tables {j : JoinRequest} (hj : registry.Dangling j) :
    ∃ start q, ofEntity registry j.entity = .ok start ∧
      start.editAll [.join .inner start.base j.relation] = .ok q ∧ j.relation ∈ q.tables := by
  obtain ⟨start, hstart⟩ : ∃ start, ofEntity registry j.entity = .ok start := by
    obtain ⟨source, a, hsource, hrelation, htarget⟩ := hj
    rw [ofEntity, hsource]
    exact ⟨_, rfl⟩
  refine ⟨start, _, hstart, rfl, ?_⟩
  obtain ⟨-, hregistry, hbase, -, -⟩ := ofEntity_ok hstart
  obtain ⟨hgrows, -⟩ := grows_join start .inner start.base j.relation
  -- the one join that is made from the base
  have hmem : registry.tableOf j ∈
      (start.join .inner start.base j.relation).1.joins.map Join.table := by
    rw [hgrows.tables_eq, hregistry, hbase]
    simp
  rw [Registry.tableOf_of_dangling hj] at hmem
  exact List.mem_cons_of_mem _ hmem

/-- **Tables are identifiers.** Whatever is registered and however a query is made
(`Query.editAll`), each of its tables (`Query.tables`) reads as an identifier or is the relation of
a join whose target is not registered (`Registry.Dangling`), and then the query is not valid.  So
the queries of a registry name identifiers only if and only if the relations of such joins are. -/
theorem tables_read (registry : Registry) :
    (∀ name edits start q, ofEntity registry name = .ok start → start.editAll edits = .ok q →
      ∀ table ∈ q.tables, Ident.Reads table ∨ (q.validate ≠ .ok () ∧
        ∃ j ∈ edits.flatMap (Edit.requests registry name), registry.Dangling j ∧
          table = j.relation)) ∧
    ((∀ name edits start q, ofEntity registry name = .ok start → start.editAll edits = .ok q →
      ∀ table ∈ q.tables, Ident.Reads table) ↔
      ∀ j, registry.Dangling j → Ident.Reads j.relation) := by
  refine ⟨?_, ?_, ?_⟩
  · intro name edits start q hstart hedits
    exact reads_or_dangling hstart hedits
  · intro h j hj
    -- one join along the relation is enough
    obtain ⟨start, q, hstart, hedits, hmem⟩ := relation_mem_tables hj
    exact h _ _ _ _ hstart hedits _ hmem
  · intro h name edits start q hstart hedits table htable
    rcases reads_or_dangling hstart hedits table htable with hreads | ⟨-, j, -, hj, rfl⟩
    · exact hreads
    · exact h j hj

/-- The one relation of the catalogue without a registered target is an identifier. -/
theorem reads_of_dangling_catalogue {j : JoinRequest} (h : catalogue.Dangling j) :
    Ident.Reads j.relation := by
  obtain ⟨entity, relation⟩ := j
  obtain ⟨source, a, hsource, hrelation, htarget⟩ := h
  have hentity := Dict.mem_of_get? hsource
  have hassociation := Dict.mem_of_get? hrelation
  rcases List.mem_pair.mp hentity with heq | heq
  · cases heq
    cases hassociation
  · cases heq
    -- only the maker leads to no registered entity
    rcases List.mem_pair.mp hassociation with heq | heq
    · cases heq
      cases htarget
    · cases heq
      exact ⟨.bare "maker", by decide +kernel⟩

/-- So all tables of its queries are identifiers, also those of joins that cannot be made. -/
theorem tables_read_makersOwner :
    ∃ start q, ofEntity catalogue "product" = .ok start ∧ start.editAll makersOwner = .ok q ∧
      q.tables = ["products", "reviews", "maker", "owner", "reviews"] ∧
      ∀ table ∈ q.tables, Ident.Reads table := by
  obtain ⟨start, q, hstart, hedits, htables⟩ : ∃ start q, ofEntity catalogue "product" = .ok start ∧
      start.editAll makersOwner = .ok q ∧
      q.tables = ["products", "reviews", "maker", "owner", "reviews"] :=
    ⟨_, _, rfl, rfl, by decide +kernel⟩
  have hreads := (tables_read catalogue).2.mpr fun _ => reads_of_dangling_catalogue
  exact ⟨start, q, hstart, hedits, htables, hreads _ _ _ _ hstart hedits⟩

/-- Products with a ghost, which no entity is registered for. -/
def hauntedProduct : Entity :=
  ((Entity.empty "product" "products").withPrimaryKey "id").belongsTo
    "ghosts; DROP TABLE products --" "ghost" "ghost_id"

/-- **A dangling relation is written out.** The products are registered, the relation of the ghosts
is no identifier, and it stands in both statements. -/
theorem unread_table_in_statements :
    ∃ haunted start q, Registry.empty.register hauntedProduct = .ok haunted ∧
      ofEntity haunted "product" = .ok start ∧
      start.editAll [.join .inner start.base "ghosts; DROP TABLE products --"] = .ok q ∧
      "ghosts; DROP TABLE products --" ∈ q.tables ∧
      ¬ Ident.Reads "ghosts; DROP TABLE products --" ∧
      q.selectSql = "SELECT p0.* FROM products AS p0 " ++
        "INNER JOIN ghosts; DROP TABLE products -- AS g1" ∧
      q.countSql = "SELECT COUNT(DISTINCT p0.id) FROM products AS p0 " ++
        "INNER JOIN ghosts; DROP TABLE products -- AS g1" := by
  refine ⟨_, _, _, rfl, rfl, rfl, by decide, ?_, by decide +kernel, by decide +kernel⟩
  rintro ⟨ident, hident⟩
  have hrefused : Ident.parse "ghosts; DROP TABLE products --" =
      .error (.badCharacter "ghosts; DROP TABLE products --" ';') := by decide +kernel
  rw [hrefused] at hident
  cases hident

end Query

end Listing
