import Listing.Proofs.Query.Joins
import Listing.Proofs.Stage.Acceptance

namespace Listing

/-!
# What a registered entity declares

An entity is registered if the names that it declares for statements are identifiers; that is all
that is looked at.  It is enough for what refers to the entity alone: a computed field that has the
columns that it takes resolves, and a page by any of the unique keys is read.  An association refers
to another entity as well, which may be registered later or not at all.  So it is left to the query:
the join is made if the target is registered by then, and else it is noted as a fault.

* `Entity.NamesRead` — the declared names are identifiers, declaration by declaration;
* `Registry.exists_register_iff` — what is registered;
* `Query.JoinsAlong` — a join along an association, with its keys written as identifiers;
* `Query.join_declared`, `Query.exists_operand_of_computed?`, `KeysetPage.normalise_uniqueKey` —
  associations, computed fields and unique keys in use;
* `Registry.declarations_usable` — what is registered can be used.
-/

/-! ### Registration -/

namespace Entity

/-- Each name that the entity declares for statements reads as an identifier. -/
structure NamesRead (e : Entity) : Prop where
  table : ∃ ident, Ident.parse e.table = .ok ident
  primaryKey : ∀ key, e.primaryKey = some key → ∃ ident, Ident.parse key = .ok ident
  uniqueKeys : ∀ key ∈ e.uniqueKeys, ∃ ident, Ident.parse key = .ok ident
  ownerKeys : ∀ entry ∈ e.associations, ∃ ident, Ident.parse entry.2.ownerKey = .ok ident
  relatedKeys : ∀ entry ∈ e.associations, ∃ ident, Ident.parse entry.2.relatedKey = .ok ident
  columns : ∀ entry ∈ e.computed, ∀ column ∈ entry.2.columns,
    ∃ ident, Ident.parse column = .ok ident

variable {e : Entity}

/-- Validity is that of the names, and asks for nothing else. -/
theorem validate_iff_namesRead : e.validate = .ok () ↔ e.NamesRead := by
  rw [validate_iff]
  simp only [declaredNames, List.forall_mem_cons, List.forall_mem_append, Option.mem_toList,
    List.forall_mem_flatMap]
  constructor
  · rintro ⟨htable, ⟨⟨hprimary, hunique⟩, hassociations⟩, hcomputed⟩
    exact ⟨htable, hprimary, hunique, fun entry hentry => (hassociations entry hentry).1,
      fun entry hentry => (hassociations entry hentry).2.1, hcomputed⟩
  · intro h
    exact ⟨h.table, ⟨⟨h.primaryKey, h.uniqueKeys⟩,
      fun entry hentry => ⟨h.ownerKeys entry hentry, h.relatedKeys entry hentry,
        List.forall_mem_nil _⟩⟩, h.columns⟩

end Entity

namespace Registry

variable {registry : Registry} {name : String} {entity : Entity}

/-- An entity that is found has names that read as identifiers. -/
theorem namesRead_of_get? (h : registry.get? name = some entity) : entity.NamesRead :=
  Entity.validate_iff_namesRead.mp (validate_of_get? h)

/-- An entity is registered exactly if its names read as identifiers. -/
theorem exists_register_iff (registry : Registry) (e : Entity) :
    (∃ r, registry.register e = .ok r) ↔ e.NamesRead := by
  rw [← Entity.validate_iff_namesRead]
  unfold register
  split
  · rename_i hvalid
    simp [hvalid]
  · rename_i hfault
    simp [hfault]

/-- An entity that is registered is found under its name. -/
theorem get?_of_register {registry r : Registry} {e : Entity} (h : registry.register e = .ok r) :
    r.get? e.name = some e := by
  unfold register at h
  split at h
  · cases h
    exact Dict.get?_insert_self e.name e registry.entities
  · cases h

end Registry

/-! ### Associations -/

namespace Query

variable {q : Query} {b : Binding} {relation : String} {a : Association} {target : Entity}

/-- The join along an association to an entity is made: it leads to the target, notes no fault, and
is written with the table of the target and, unless it is a cross join, the two keys, all of them
identifiers. -/
structure JoinsAlong (q : Query) (b : Binding) (kind : JoinKind) (relation : String)
    (a : Association) (target : Entity) : Prop where
  fault : (q.join kind b relation).1.fault = q.fault
  entity : (q.join kind b relation).2.entity = a.target
  text : ∃ (table related owner : Ident) (j : Join), Ident.parse target.table = .ok table ∧
    Ident.parse a.relatedKey = .ok related ∧ Ident.parse a.ownerKey = .ok owner ∧
    (q.join kind b relation).1.joins = q.joins ++ [j] ∧
    Sql.text j.tokens = Sql.text kind.tokens ++ " " ++ table.text ++ " AS " ++
      (q.join kind b relation).2.source.text ++
      if kind = .cross then ""
      else " ON " ++ ((q.join kind b relation).2.source.text ++ "." ++ related.text ++ " = " ++
        b.source.text ++ "." ++ owner.text)

/-- An association to a registered entity is joined. -/
theorem join_declared {entity : Entity} (hentity : q.registry.get? b.entity = some entity)
    (ha : entity.association? relation = some a) (htarget : q.registry.get? a.target = some target)
    (kind : JoinKind) : q.JoinsAlong b kind relation a target := by
  have hassociation : q.registry.association? ⟨b.entity, relation⟩ = some a :=
    Registry.association?_eq_some_iff.mpr ⟨entity, hentity, ha⟩
  have hcontains : q.registry.contains a.target = true := by rw [Registry.contains, htarget]; rfl
  obtain ⟨hgrows, hreached⟩ := grows_join q kind b relation
  refine ⟨?_, ?_, ?_⟩
  · have hfault : q.registry.faultOf ⟨b.entity, relation⟩ = none :=
      Registry.faultOf_eq_none_iff.mpr ⟨entity, a, hentity, ha, hcontains⟩
    rw [hgrows.fault_eq]
    simp [hfault]
  · rw [hreached, Registry.reached, hassociation]
  · have hnames := Registry.namesRead_of_get? hentity
    have hentry := Dict.mem_of_get? ha
    obtain ⟨table, htable⟩ := (Registry.namesRead_of_get? htarget).table
    obtain ⟨related, hrelated⟩ := hnames.relatedKeys _ hentry
    obtain ⟨owner, howner⟩ := hnames.ownerKeys _ hentry
    refine ⟨table, related, owner, _, htable, hrelated, howner, joins_join q kind b relation, ?_⟩
    -- an identifier is written as the text that was read
    rw [Ident.text_of_parse htable, Ident.text_of_parse hrelated, Ident.text_of_parse howner]
    exact Registry.text_joinOf hassociation htarget

/-- An association to an entity that is not registered is a fault, unless there is one already. -/
theorem fault_join_dangling {entity : Entity} (hentity : q.registry.get? b.entity = some entity)
    (ha : entity.association? relation = some a) (htarget : q.registry.get? a.target = none)
    (kind : JoinKind) : (q.join kind b relation).1.fault =
      q.fault.or (some (.unknownTarget relation b.entity a.target)) := by
  have hassociation : q.registry.association? ⟨b.entity, relation⟩ = some a :=
    Registry.association?_eq_some_iff.mpr ⟨entity, hentity, ha⟩
  rw [(grows_join q kind b relation).1.fault_eq]
  simp [Registry.faultOf, hassociation, htarget]

/-! ### Computed fields -/

/-- A computed field with the columns that it takes resolves by its name. -/
theorem exists_operand_of_computed? {entity : Entity} {name : String} {field : Field}
    (hentity : q.registry.get? b.entity = some entity) (h : entity.computed? name = some field)
    (hfit : field.wellFormed = true) : ∃ operand, q.operand b (.column name) = .ok operand := by
  have hfield : q.fieldAt b (.column name) = field := by
    show ((q.registry.get? b.entity).bind fun entity => entity.computed? name).getD _ = _
    rw [hentity, Option.bind_some, h, Option.getD_some]
  rw [operand, hfield]
  cases hrun : writtenOperand b field with
  | ok operand => exact ⟨operand, rfl⟩
  | error e =>
    -- only one of its columns could be refused, and these have been read at registration
    exact absurd (ofName_writtenOperand b hfit e hrun) (not_ofName_computed hentity h)

end Query

/-! ### Unique keys -/

namespace KeysetPage

/-- A request for a page by a unique key is read if its last key and its numbers are. -/
theorem normalise_uniqueKey {q : Query} {fields : Dict Json} {key : String} {last : Term}
    {size page : Option Int64} (hkey : Dict.get? fields "key_field" = some (.str key))
    (hunique : q.entity.isUniqueKey key = true) (hlast : lastSeen fields = .ok last)
    (hsize : Request.integer fields "per_page" = .ok size)
    (hpage : Request.integer fields "page" = .ok page) (perPage : Int64) :
    normalise q (.obj fields) perPage =
      .ok ⟨max (size.getD perPage) 1, max (page.getD 1) 1, last, key⟩ := by
  -- each field is read in turn, and none of them fails
  have hcolumn : keyColumn q.entity fields = .ok key := by rw [keyColumn, hkey]
  show (keyColumn q.entity fields >>= _) = _
  rw [hcolumn]
  show (if !q.entity.isUniqueKey key then _ else _) = _
  rw [hunique]
  show (lastSeen fields >>= _) = _
  rw [hlast]
  show (Request.integer fields "per_page" >>= _) = _
  rw [hsize]
  show (Request.integer fields "page" >>= _) = _
  rw [hpage]
  rfl

/-- The document of a page by a key that is an identifier is never refused. -/
theorem exists_run {p : KeysetPage} {ident : Ident} (h : Ident.parse p.keyField = .ok ident)
    (r : Query) : ∃ s, Builtin.keysetPage.run r p.encode = .ok s := by
  show ∃ s, (Builtin.decoded (decode p.encode) >>= r.pageAfter) = .ok s
  rw [decode_encode]
  exact r.exists_pageAfter h

end KeysetPage

/-! ### What is registered -/

namespace Registry

variable {m : Type → Type} [Monad m]

/-- **Declarations can be used.** What is registered can be used.  An association of the entity is
joined (`Query.JoinsAlong`) if its target is registered; a computed field with the columns that it
takes (`Field.wellFormed`) resolves by its name; and `Builtin.keysetPage` takes any last key that
reads as a term for a page by a key that is unique (`Entity.isUniqueKey`).  `Registry.register`
takes an entity, and `Registry.get?` then finds it, exactly if the names it declares read as
identifiers (`Entity.NamesRead`), whatever the targets of its associations: a join along one whose
target is not registered is noted as a fault. -/
theorem declarations_usable (registry : Registry) :
    (∀ name entity, registry.get? name = some entity →
      (∀ (q : Query) (b : Binding) (kind : JoinKind) (relation : String) (a : Association),
        q.registry = registry → b.entity = name → entity.association? relation = some a →
        (∀ target, registry.get? a.target = some target → q.JoinsAlong b kind relation a target) ∧
        (registry.get? a.target = none → (q.join kind b relation).1.fault =
          q.fault.or (some (.unknownTarget relation name a.target)))) ∧
      (∀ (q : Query) (b : Binding) (column : String) (field : Field),
        q.registry = registry → b.entity = name → entity.computed? column = some field →
        field.wellFormed = true → ∃ operand, q.operand b (.column column) = .ok operand) ∧
      ∀ (q : Query) (key : String) (fields : Dict Json) (last : Term) (size page : Option Int64)
        (context : Context m), q.entity = entity → entity.isUniqueKey key = true →
        Dict.get? fields "key_field" = some (.str key) → KeysetPage.lastSeen fields = .ok last →
        Request.integer fields "per_page" = .ok size → Request.integer fields "page" = .ok page →
        ∃ p : KeysetPage, p.keyField = key ∧ p.lastSeenKey = last ∧
          Builtin.keysetPage.format q (.obj fields) context = pure p.encode ∧
          ∀ r, ∃ s, Builtin.keysetPage.run r p.encode = .ok s) ∧
    ∀ e : Entity, ((∃ r, registry.register e = .ok r) ↔ e.NamesRead) ∧
      ∀ r, registry.register e = .ok r → r.get? e.name = some e := by
  refine ⟨fun name entity h => ⟨?_, ?_, ?_⟩,
    fun e => ⟨exists_register_iff registry e, fun r => get?_of_register⟩⟩
  · rintro q b kind relation a rfl rfl ha
    exact ⟨fun target htarget => Query.join_declared h ha htarget kind,
      fun htarget => Query.fault_join_dangling h ha htarget kind⟩
  · rintro q b column field rfl rfl hcomputed hfit
    exact Query.exists_operand_of_computed? h hcomputed hfit
  · rintro q key fields last size page context rfl hunique hkey hlast hsize hpage
    obtain ⟨ident, hident⟩ := Entity.exists_parse_of_isUniqueKey (validate_of_get? h) hunique
    have hread := KeysetPage.normalise_uniqueKey hkey hunique hlast hsize hpage context.perPage
    refine ⟨⟨max (size.getD context.perPage) 1, max (page.getD 1) 1, last, key⟩, rfl, rfl, ?_,
      fun r => KeysetPage.exists_run hident r⟩
    rw [Builtin.format, hread]
    rfl

/-- Products with a category, the year they were made in, and a number besides the key. -/
def madeProduct : Entity :=
  ((((Entity.empty "product" "products").withPrimaryKey "id").withUniqueKey "sku").belongsTo
    "category" "category" "category_id").withComputed "year" (.computed .yearOf ["made_at"])

/-- The products, and categories with nothing but their table. -/
def madeProducts : Registry :=
  (Registry.empty.insert (Entity.empty "category" "categories") rfl).insert madeProduct rfl

/-- All products. -/
def allMade : Query :=
  ⟨madeProducts, ⟨⟨'p', 0⟩, "product"⟩, madeProduct, [], [], [], none, none, none⟩

/-- The category is joined, the year resolves, and a page after a list of numbers is read. -/
theorem declarations_usable_product :
    allMade.JoinsAlong allMade.base .left "category" ⟨"category", "category", "category_id", "id"⟩
      (Entity.empty "category" "categories") ∧
    (∃ operand, allMade.operand allMade.base (.column "year") = .ok operand) ∧
    ∃ p : KeysetPage, p.keyField = "sku" ∧
      Builtin.keysetPage.format allMade (.obj [("key_field", .str "sku"),
        ("last_seen_key", .arr [.int 1, .str "A"])]) (⟨none, 10⟩ : Context Id) = pure p.encode ∧
      ∀ r, ∃ s, Builtin.keysetPage.run r p.encode = .ok s := by
  have hproduct : madeProducts.get? "product" = some madeProduct := rfl
  obtain ⟨hregistered, -⟩ := declarations_usable (m := Id) madeProducts
  obtain ⟨hassociations, hcomputed, hkeys⟩ := hregistered "product" madeProduct hproduct
  refine ⟨?_, hcomputed allMade allMade.base "year" _ rfl rfl rfl rfl, ?_⟩
  · exact (hassociations allMade allMade.base .left "category" _ rfl rfl rfl).1 _ rfl
  · obtain ⟨p, hkey, -, hformat, hrun⟩ := hkeys allMade "sku"
      [("key_field", .str "sku"), ("last_seen_key", .arr [.int 1, .str "A"])]
      (.list [.int 1, .text "A"]) none none ⟨none, 10⟩ rfl rfl rfl rfl rfl rfl
    exact ⟨p, hkey, hformat, hrun⟩

/-- Products with a ghost, which no entity is registered for, and with the year of no column. -/
def ghostlyProduct : Entity :=
  ((Entity.empty "product" "products").belongsTo "ghost" "phantom" "ghost_id").withComputed "year"
    (.computed .yearOf [])

/-- **Unusable declarations are registered.** An association to an entity that is not registered,
and a computed field without the column that it takes, both pass `Registry.register`, though neither
can be used. -/
theorem unusable_declarations_registered :
    ∃ registry q, Registry.empty.register ghostlyProduct = .ok registry ∧
      Query.ofEntity registry "product" = .ok q ∧
      (q.join .inner q.base "ghost").1.fault =
        some (.unknownTarget "ghost" "product" "phantom") ∧
      q.operand q.base (.column "year") = .error (.invalidParams (.templateArity .yearOf 0)) :=
  ⟨_, _, rfl, rfl, rfl, rfl⟩

end Registry

end Listing
