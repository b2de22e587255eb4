import Listing.Proofs.Query.History
import Listing.Proofs.Search.Blank
import Listing.Proofs.Stage.Faults
import Listing.Proofs.Stage.Normal

namespace Listing

/-!
# What is accepted for its shape

Parameters are looked at twice: when a hook normalises them, and when it applies what they were
normalised to.  The second look finds nothing wrong with their shape.  Their document is read, the
fields have the columns that they take, and the terms fit; only a text that is no identifier, where
one has to be a column, is found then.

* `Registry.ComputedFit` — the computed fields of the entities have the columns that they take;
* `Query.Registered`, `Query.registered_editAll` — the entity of a query is that of its registry, as
  it is of every query that is made of an entity;
* `Query.ofName_operand` — a field of the right shape is refused for one of its columns alone;
* `Query.ofName_search`, `Query.ofName_sort`, `Query.exists_pageAfter` — so are a criterion and a
  key, and a page by a key that is an identifier is never refused;
* `Builtin.Shaped`, `Builtin.ofName_apply` — parameters of the right shape, and their use;
* `Builtin.yields_shaped` — the document of normalised parameters is read as such parameters;
* `Builtin.format_accepted` — what a hook accepts to normalise, it does not refuse for its shape.
-/

open Error (OfName)

/-- Each computed field of an entity has as many columns as its template takes. -/
def Registry.ComputedFit (registry : Registry) : Prop :=
  ∀ entry ∈ registry.entities, ∀ computed ∈ entry.2.computed, computed.2.wellFormed = true

/-- The entity of the query is the one that its registry has under the name of its base. -/
def Query.Registered (q : Query) : Prop := q.registry.get? q.base.entity = some q.entity

/-- A query that is made of an entity keeps it, and so it is registered. -/
theorem Query.registered_editAll {registry : Registry} {name : String} {q r : Query}
    {edits : List Edit} (hstart : ofEntity registry name = .ok q)
    (hedits : q.editAll edits = .ok r) : r.Registered := by
  obtain ⟨hentity, hregistry, hbase, -⟩ := ofEntity_ok hstart
  have hgrows := grows_editAll hedits
  rw [Registered, hgrows.registry_eq, hgrows.base_eq, hgrows.entity_eq, hregistry, hbase]
  exact hentity

/-! ### Fields -/

namespace Query

variable {q r : Query}

/-- A field that is written with the columns that it takes is refused for one of them alone. -/
theorem ofName_writtenOperand (b : Binding) {field : Field} (h : field.wellFormed = true) :
    FailsWith (OfName (· ∈ field.columns)) (writtenOperand b field) := by
  have hcolumn : ∀ name ∈ field.columns,
      FailsWith (OfName (· ∈ field.columns)) (columnOperand b name) :=
    fun _ hname => ofName_columnOperand_of_mem b hname
  cases field with
  | column name => exact hcolumn name (List.mem_singleton.mpr rfl)
  | computed template args =>
    refine (FailsWith.mapM hcolumn).bind fun columns hcolumns => ?_
    -- each column has become an operand, so there are as many as the template takes
    have hlength : columns.length = template.arity := by
      rw [Except.length_mapM hcolumns]
      simpa [Field.wellFormed, Field.columns] using h
    have hsome : (Sql.Operand.ofTemplate? template columns).isSome = true := by
      rw [Sql.Operand.isSome_ofTemplate?, hlength]
      exact beq_self_eq_true _
    obtain ⟨operand, hoperand⟩ := Option.isSome_iff_exists.mp hsome
    simp only [hoperand]
    exact failsWith_ok operand

/-- A field of the right shape is refused for one of the columns that it names. -/
theorem ofName_operand (hfit : q.registry.ComputedFit) (b : Binding) {field : Field}
    (h : field.wellFormed = true) : FailsWith (OfName (· ∈ field.columns)) (q.operand b field) := by
  cases field with
  | computed template args => exact ofName_writtenOperand b h
  | column name =>
    rw [operand, fieldAt]
    -- a name may stand for a computed field of the entity, whose columns the request does not name
    cases hfound : (q.entityOf b).bind fun entity => entity.computed? name with
    | none => exact ofName_writtenOperand b rfl
    | some registered =>
      obtain ⟨entity, hentity, hcomputed⟩ := Option.bind_eq_some_iff.mp hfound
      have hregistered : registered.wellFormed = true :=
        hfit (b.entity, entity) (Dict.mem_of_get? hentity) (name, registered)
          (Dict.mem_of_get? hcomputed)
      exact (ofName_writtenOperand b hregistered).mono fun e hname =>
        absurd hname (not_ofName_computed hentity hcomputed)

/-- Following a path leaves the registry as it is. -/
theorem computedFit_follow (hfit : q.registry.ComputedFit) (path : JoinPath) :
    (q.follow path).1.registry.ComputedFit := by
  obtain ⟨joins, fault, hfollow⟩ := q.follow_frame path
  rw [hfollow]
  exact hfit

end Query

/-! ### Criteria and keys -/

/-- A term of the needed shape has a condition. -/
theorem SearchOperator.exists_condition (lhs : Sql.Operand) {operator : SearchOperator}
    {term : Term} (h : operator.fits term = true) :
    ∃ c, operator.condition lhs term = .ok c := by
  -- the shape that is asked of the term is the one that the condition is made of
  cases operator with
  | isNull =>
    obtain ⟨b, hb⟩ := Option.isSome_iff_exists.mp h
    exact ⟨_, by rw [condition, hb]⟩
  | isIn | notIn =>
    cases term with
    | list items => exact ⟨_, rfl⟩
    | _ => cases h
  | between =>
    cases term with
    | list items =>
      obtain ⟨low, high, rfl⟩ := List.length_eq_two.mp (by simpa [fits] using h)
      exact ⟨_, rfl⟩
    | _ => cases h
  | like | ilike | eq | gt | lt | gteq | lteq => exact ⟨_, rfl⟩

/-- A pattern with wildcards is a text, as a pattern has to be. -/
theorem Criterion.check_withWildcards {c : Criterion} (h : c.check = .ok ()) :
    c.withWildcards.check = .ok () := by
  unfold withWildcards
  split
  · rename_i pattern hoperator hterm
    exact check_ok_iff.mpr (.inr (by rw [hoperator]; rfl))
  · rename_i pattern hoperator hterm
    exact check_ok_iff.mpr (.inr (by rw [hoperator]; rfl))
  · exact h

namespace Query

variable {q r : Query}

/-- A criterion of the right shape is refused for a column that it names, if at all. -/
theorem ofName_search (hfit : q.registry.ComputedFit) {c : Criterion}
    (hfield : c.field.wellFormed = true) (hcheck : c.check = .ok ()) :
    FailsWith (OfName (· ∈ c.field.columns)) (q.search c) := by
  unfold search
  split
  · exact failsWith_ok _
  · rename_i hblank
    have hfits : c.operator.fits c.term = true :=
      (Criterion.check_ok_iff.mp hcheck).resolve_left hblank
    -- once the term fits, only the field can fail
    rw [hcheck]
    have hfollowed := computedFit_follow hfit c.path
    show FailsWith _ ((q.follow c.path).1.operand (q.follow c.path).2 c.field >>= _)
    refine (ofName_operand hfollowed (q.follow c.path).2 hfield).bind fun operand _ => ?_
    obtain ⟨condition, hcondition⟩ := SearchOperator.exists_condition operand hfits
    rw [hcondition]
    exact failsWith_ok _

/-- In a lenient search the term need not fit: the criterion is left out then. -/
theorem ofName_searchLeniently (hfit : q.registry.ComputedFit) {c : Criterion}
    (hfield : c.field.wellFormed = true) :
    FailsWith (OfName (· ∈ c.field.columns)) (q.searchLeniently c) := by
  unfold searchLeniently
  split
  · rename_i hcheck
    rw [← c.field_withWildcards] at hfield ⊢
    exact ofName_search hfit hfield (Criterion.check_withWildcards hcheck)
  · exact failsWith_ok _

/-- A key fails for a name among the columns of its field alone. -/
theorem ofName_sort (hfit : q.registry.ComputedFit) {key : SortKey}
    (hfield : key.field.wellFormed = true) :
    FailsWith (OfName (· ∈ key.field.columns)) (q.sort key) := by
  unfold sort
  split
  · exact failsWith_ok _
  · have hfollowed := computedFit_follow hfit key.path
    exact (ofName_operand hfollowed _ hfield).bind fun operand _ => failsWith_ok _

/-- A page by a key that is an identifier is never refused. -/
theorem exists_pageAfter (q : Query) {p : KeysetPage} {ident : Ident}
    (h : Ident.parse p.keyField = .ok ident) : ∃ r, q.pageAfter p = .ok r := by
  unfold pageAfter after
  split
  · exact ⟨_, rfl⟩
  · rw [columnOperand, h]
    exact ⟨_, rfl⟩

/-- Items that are applied one after the other, each of the right shape, are refused for a column
that one of them names. -/
theorem ofName_foldlM {α : Type} {columns : α → List String} {Shaped : α → Prop}
    {step : Query → α → Except Error Query} {xs : List α}
    (hkeep : ∀ q x r, step q x = .ok r → r.registry = q.registry)
    (h : ∀ q : Query, q.registry.ComputedFit → ∀ x, Shaped x →
      FailsWith (OfName (· ∈ columns x)) (step q x))
    (hshape : ∀ x ∈ xs, Shaped x) (hfit : q.registry.ComputedFit) :
    FailsWith (OfName (· ∈ xs.flatMap columns)) (xs.foldlM step q) := by
  refine FailsWith.foldlM_of_kept (P := fun q => q.registry.ComputedFit) ?_ ?_ hfit
  · intro x _ b c hb hstep
    rw [hkeep b x c hstep]
    exact hb
  -- the columns of one step are among those of all
  · intro x hx b hb
    refine (h b hb x (hshape x hx)).mono fun e he => he.mono ?_
    exact fun name hname => List.mem_flatMap.mpr ⟨x, hx, hname⟩

end Query

/-! ### Documents of criteria -/

/-- The document of well-formed criteria is read, as criteria among them with settled terms. -/
theorem Criteria.exists_decode_encode {criteria : Criteria}
    (hfields : ∀ entry ∈ criteria, entry.2.field.wellFormed = true) :
    ∃ found, decode (encode criteria) = .ok found ∧
      ∀ entry ∈ found, ∃ c, (entry.1, c) ∈ criteria ∧ entry.2 = c.settled := by
  -- of a repeated name the last criterion is written, so fewer may be read than were written
  have hread : ∀ x ∈ Dict.ofEntries (criteria.map fun entry => (entry.1, entry.2.encode)),
      ∃ c, (x.1, c) ∈ criteria ∧ decodeEntry x = .ok (x.1, c.settled) := by
    intro x hx
    obtain ⟨c, hc, hencode⟩ := exists_of_mem_encode hx
    refine ⟨c, hc, ?_⟩
    rw [decodeEntry, hencode, Criterion.decode_encode (hfields _ hc)]
  obtain ⟨found, hfound, -⟩ := Except.exists_mapM_ok (P := fun _ _ => True) id _
    fun x hx => (hread x hx).elim fun c hc => ⟨(x.1, c.settled), hc.2, trivial⟩
  rw [List.map_id] at hfound
  refine ⟨found, hfound, ?_⟩
  intro entry hentry
  obtain ⟨x, hx, hdecode⟩ := Except.mapM_ok hfound entry hentry
  obtain ⟨c, hc, hsettled⟩ := hread x hx
  cases hdecode.symm.trans hsettled
  exact ⟨c, hc, rfl⟩

/-! ### Hooks -/

namespace Builtin

/-- The hook is one of a page. -/
def IsPage (b : Builtin) : Prop := b = offsetPage ∨ b = keysetPage

/-- The parameters have the shape that the hook asks for. -/
def Shaped : (b : Builtin) → b.Parameters → Prop
  | search => fun criteria => ∀ entry ∈ criteria,
      entry.2.field.wellFormed = true ∧ entry.2.check = .ok ()
  | lenientSearch => fun criteria => ∀ entry ∈ criteria, entry.2.field.wellFormed = true
  | sort | lenientSort => fun keys => ∀ key ∈ keys, key.field.wellFormed = true
  | offsetPage => fun _ => True
  | keysetPage => fun p => ∃ ident, Ident.parse p.keyField = .ok ident

variable {b : Builtin} {q : Query} {p : b.Parameters}

/-- A page that is read is always applied. -/
theorem exists_apply (hb : b.IsPage) (q : Query) (h : b.Shaped p) : ∃ r, b.apply q p = .ok r := by
  rcases hb with rfl | rfl
  · exact ⟨_, rfl⟩
  · obtain ⟨ident, hident⟩ := h
    exact q.exists_pageAfter hident

/-- Parameters of the right shape are refused for a column that they name, if at all. -/
theorem ofName_apply (hfit : q.registry.ComputedFit) (h : b.Shaped p) :
    FailsWith (OfName (· ∈ b.columns p)) (b.apply q p) := by
  cases b with
  | search =>
    refine Query.ofName_foldlM ?_ (fun q hq entry hentry =>
      Query.ofName_search hq hentry.1 hentry.2) h hfit
    intro q entry r hrun
    -- the step leaves the registry, and so the fit of its computed fields
    obtain ⟨joins, conjuncts, fault, rfl⟩ := Query.search_frame hrun
    rfl
  | lenientSearch =>
    refine Query.ofName_foldlM ?_ (fun q hq entry hentry =>
      Query.ofName_searchLeniently hq hentry) h hfit
    intro q entry r hrun
    obtain ⟨joins, conjuncts, fault, rfl⟩ := Query.searchLeniently_frame hrun
    rfl
  | sort | lenientSort =>
    refine Query.ofName_foldlM ?_ (fun q hq key hkey => Query.ofName_sort hq hkey) h hfit
    intro q key r hrun
    obtain ⟨joins, order, fault, rfl⟩ := Query.sort_frame hrun
    rfl
  | offsetPage => exact failsWith_ok _
  | keysetPage =>
    obtain ⟨r, hr⟩ := exists_apply (.inr rfl) q h
    rw [hr]
    exact failsWith_ok r

variable {m : Type → Type} [Monad m] [LawfulMonad m] {request : Json}

/-- The document that a hook normalises a request to is read as parameters of the right shape. -/
theorem yields_shaped (b : Builtin) (hq : q.Registered) (hscope : b.Unscoped request)
    (context : Context m) :
    Yields (fun document => ∃ p, b.decode document = .ok p ∧ b.Shaped p)
      (b.format q request context) := by
  cases b with
  | search =>
    refine yields_liftOutcome ?_
    intro document hdocument
    obtain ⟨criteria, hcriteria, rfl⟩ := Except.map_ok hdocument
    have hgood := StrictSearch.normalise_ok hscope hcriteria
    obtain ⟨found, hfound, hamong⟩ :=
      Criteria.exists_decode_encode fun entry hentry => (hgood entry hentry).1
    refine ⟨found, hfound, ?_⟩
    intro entry hentry
    obtain ⟨c, hc, hsettled⟩ := hamong entry hentry
    obtain ⟨hfield, hcheck⟩ := hgood _ hc
    rw [hsettled]
    exact ⟨hfield, Criterion.check_settled hcheck⟩
  | lenientSearch =>
    refine yields_liftOutcome ?_
    intro document hdocument
    obtain ⟨criteria, hcriteria, rfl⟩ := Except.map_ok hdocument
    have hgood := LenientSearch.normalise_ok hscope hcriteria
    obtain ⟨found, hfound, hamong⟩ := Criteria.exists_decode_encode hgood
    refine ⟨found, hfound, ?_⟩
    intro entry hentry
    obtain ⟨c, hc, hsettled⟩ := hamong entry hentry
    rw [hsettled]
    exact hgood _ hc
  | sort =>
    refine yields_liftOutcome ?_
    intro document hdocument
    obtain ⟨keys, hkeys, rfl⟩ := Except.map_ok hdocument
    have hfields : ∀ key ∈ keys, key.field.wellFormed = true :=
      fun key hkey => (StrictSort.normalise_ok hscope hkeys key hkey).1
    exact ⟨keys, SortKeys.decode_encode hfields, hfields⟩
  | lenientSort =>
    refine yields_liftOutcome ?_
    intro document hdocument
    obtain ⟨keys, hkeys, rfl⟩ := Except.map_ok hdocument
    have hfields := LenientSort.normalise_ok hscope hkeys
    exact ⟨keys, SortKeys.decode_encode hfields, hfields⟩
  | offsetPage =>
    rw [format, map_eq_pure_bind]
    refine yields_bind (yields_trivial _) ?_
    intro page _
    exact yields_pure ⟨page, OffsetPage.decode_encode page, trivial⟩
  | keysetPage =>
    refine yields_liftOutcome ?_
    intro document hdocument
    obtain ⟨page, hpage, rfl⟩ := Except.map_ok hdocument
    -- the key column was declared, and registering the entity has looked at what it declares
    have hunique : q.entity.isUniqueKey page.keyField = true := (KeysetPage.normalise_ok hpage).1
    have hident := Entity.exists_parse_of_isUniqueKey (Registry.validate_of_get? hq) hunique
    exact ⟨_, KeysetPage.decode_encode page, hident⟩

/-- **What is accepted is applied.** A document of `Builtin.format` is not refused, on any query of
the registry, for its shape:  `Builtin.decode` reads it, and `Builtin.run` refuses it, if at all,
for a text that it names as a column (`Builtin.columns`) and that is no identifier.  A page is not
refused. -/
theorem format_accepted (b : Builtin) (hq : q.Registered) (hfit : q.registry.ComputedFit)
    (hscope : b.Unscoped request) (context : Context m) :
    Yields (fun document => ∃ p, b.decode document = .ok p ∧
        ∀ r : Query, r.registry = q.registry →
          FailsWith (OfName (· ∈ b.columns p)) (b.run r document) ∧
            (b.IsPage → ∃ t, b.run r document = .ok t))
      (b.format q request context) := by
  refine yields_mono ?_ (yields_shaped b hq hscope context)
  rintro document ⟨p, hread, hshape⟩
  refine ⟨p, hread, ?_⟩
  intro r hregistry
  have hrun : b.run r document = b.apply r p := by
    rw [run_eq, hread]
    rfl
  rw [hrun]
  exact ⟨ofName_apply (hregistry ▸ hfit) hshape, fun hb => exists_apply hb r hshape⟩

/-- Products with their name and their number as one text. -/
def labelledProduct : Entity :=
  ((Entity.empty "product" "products").withPrimaryKey "id").withComputed "label"
    (.computed .concatTwo ["name", "sku"])

/-- All labelled products. -/
def labelledProducts : Query :=
  ⟨Registry.empty.insert labelledProduct rfl, ⟨⟨'p', 0⟩, "product"⟩, labelledProduct, [], [], [],
    none, none, none⟩

/-- A search by the label, and then by a column that is no identifier. -/
def labelSearch : Json :=
  .obj [("label", .obj [("search_type", .str "eq"), ("search_term", .str "x")]),
    ("in stock", .obj [("search_type", .str "gt"), ("search_term", .int 0)])]

/-- A search is accepted, and what it is normalised to is refused for the name of a column; a page
that is accepted is not refused. -/
theorem format_accepted_labelled :
    Query.ofEntity (Registry.empty.insert labelledProduct rfl) "product" = .ok labelledProducts ∧
    (∃ document e, search.format labelledProducts labelSearch ⟨none, 10⟩ =
        (pure document : ExceptT Error Id Json) ∧
      search.run labelledProducts document = .error e ∧
      OfName (· ∈ ["label", "in stock"]) e) ∧
    ∃ document r, keysetPage.format labelledProducts (.obj [("last_seen_key", .int 7)]) ⟨none, 10⟩ =
        (pure document : ExceptT Error Id Json) ∧
      keysetPage.run labelledProducts document = .ok r := by
  have hregistered : labelledProducts.Registered := rfl
  have hfit : labelledProducts.registry.ComputedFit := by
    intro entry hentry
    obtain rfl := List.mem_singleton.mp hentry
    exact List.forall_mem_singleton.mpr rfl
  have hscope : search.Unscoped labelSearch := by
    rintro entries ⟨⟩ entry hentry
    simp only [List.mem_cons, List.not_mem_nil, or_false] at hentry
    rcases hentry with rfl | rfl
    · exact ⟨_, rfl⟩
    · exact ⟨_, rfl⟩
  refine ⟨rfl, ?_, ?_⟩
  -- what is refused names one of the two fields
  · have haccepted := of_ensures_id
      (format_accepted (m := Id) search hregistered hfit hscope ⟨none, 10⟩) _ rfl
    obtain ⟨p, hread, hrun⟩ := haccepted
    cases hread
    exact ⟨_, _, rfl, rfl, failsWith_error.mp (hrun labelledProducts rfl).1⟩
  · have hpage : keysetPage.Unscoped (.obj [("last_seen_key", .int 7)]) := trivial
    have haccepted := of_ensures_id
      (format_accepted (m := Id) keysetPage hregistered hfit hpage ⟨none, 10⟩) _ rfl
    obtain ⟨p, -, hrun⟩ := haccepted
    obtain ⟨r, hr⟩ := (hrun labelledProducts rfl).2 (.inr rfl)
    exact ⟨_, r, rfl, hr⟩

end Builtin

end Listing
