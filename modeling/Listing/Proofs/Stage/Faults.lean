import Listing.Proofs.Entity.Valid
import Listing.Proofs.Failure
import Listing.Proofs.Stage.Wire

namespace Listing

/-!
# What requests are refused for

Every function that reads a request refuses it for its configuration or its parameters, and says so.
Names are not looked at before a field becomes an operand of a row source: a column that is no
identifier is refused only then, by an error that does not say so.

* `Error.Blames` — an error that lies in configuration or parameters, or is that of a name;
* `Entity.ScopesSucceed` — no scope of the entity fails;
* `StrictSearch.refuses_normalise` and its like — requests that are refused while they are read;
* `Query.not_ofName_computed`, `Query.blames_operand` — a registered field, which is not refused for
  one of its columns, and a field that is;
* `Builtin.columns`, `Builtin.blames_apply` — parameters that are refused for a column they name.
-/

/-! ### Errors -/

namespace Error

/-- The error is that of a text, among some, that is no identifier. -/
def OfName (Named : String → Prop) (e : Error) : Prop :=
  ∃ name fault, Named name ∧ Ident.parse name = .error fault ∧ e = .ofIdent fault

/-- The error lies in configuration or parameters, or it is that of a name that is no identifier. -/
def Blames (Named : String → Prop) (e : Error) : Prop :=
  e.isConfiguration = true ∨ e.OfName Named

variable {Named Named' : String → Prop} {e : Error}

/-- More names may be at fault. -/
theorem OfName.mono (he : e.OfName Named) (h : ∀ name, Named name → Named' name) :
    e.OfName Named' := by
  obtain ⟨name, fault, hname, hparse, rfl⟩ := he
  exact ⟨name, fault, h name hname, hparse, rfl⟩

/-- More names may be blamed. -/
theorem Blames.mono (he : e.Blames Named) (h : ∀ name, Named name → Named' name) :
    e.Blames Named' :=
  he.imp_right fun hname => hname.mono h

/-- An error that says that it does not lie in configuration or parameters is that of a name. -/
theorem Blames.isConfiguration_eq_false_iff (he : e.Blames Named) :
    e.isConfiguration = false ↔ e.OfName Named := by
  constructor
  · intro hnot
    refine he.resolve_left ?_
    rw [hnot]
    exact Bool.false_ne_true
  · rintro ⟨name, fault, -, -, rfl⟩
    rfl

end Error

/-- What is only ever refused blames no name, so it may be said of any. -/
theorem FailsWith.blames {α : Type} {x : Except Error α} (hx : Refuses x)
    (Named : String → Prop) : FailsWith (Error.Blames Named) x :=
  hx.mono fun _ => .inl

/-! ### Scopes -/

/-- No scope among some fails, whatever value it is given. -/
def Scope.AllSucceed {α : Type} (scopes : Dict (Scope α)) : Prop :=
  ∀ name scope t, Dict.get? scopes name = some scope → ∃ a, scope t = .ok a

/-- No scope of the entity fails. -/
structure Entity.ScopesSucceed (e : Entity) : Prop where
  search : Scope.AllSucceed e.searchScopes
  sort : Scope.AllSucceed e.sortScopes
  page : Scope.AllSucceed e.pageScopes

namespace Entity

variable {α : Type} {e : Entity} {kind : ScopeKind} {scopes : Dict (Scope α)} {name : String}

/-- A reference to a scope is refused if nobody registered it. -/
theorem refuses_scope : Refuses (e.scope kind scopes name) := by
  unfold scope
  split
  · exact failsWith_ok _
  · exact failsWith_error.mpr rfl

/-- A scope that has been found is one of the entity, and these succeed. -/
theorem refuses_of_scope (hscopes : Scope.AllSucceed scopes) {found : Scope α}
    (hfound : e.scope kind scopes name = .ok found) (t : Term) : Refuses (found t) := by
  unfold scope at hfound
  split at hfound
  · rename_i hs
    cases hfound
    -- no scope fails for any value, so nothing is left to refuse
    obtain ⟨a, ha⟩ := hscopes name found t hs
    rw [ha]
    exact failsWith_ok a
  · cases hfound

end Entity

/-! ### Parts of requests -/

namespace Field

/-- The arguments of a template are refused if one is no text. -/
theorem refuses_argNames (items : List Json) : Refuses (argNames items) := by
  fun_induction argNames items with
  | case1 => exact failsWith_ok _
  | case2 name rest ih => exact ih.map
  | case3 => exact failsWith_error.mpr rfl

/-- A computed field is refused for its template, or for the number or the kind of its arguments. -/
theorem refuses_parseComputed (fields : Dict Json) : Refuses (parseComputed fields) := by
  unfold parseComputed templateNamed compute
  split
  · exact failsWith_error.mpr rfl
  -- the template first, then its arguments; each may be missing or of the wrong kind
  · refine .bind ?_ fun template _ => ?_
    · split
      · exact failsWith_ok _
      · exact failsWith_error.mpr rfl
    · split
      · exact failsWith_error.mpr rfl
      · refine (refuses_argNames _).bind fun args _ => ?_
        split
        · exact failsWith_ok _
        · exact failsWith_error.mpr rfl

/-- A field is refused unless it is a text or a computed one. -/
theorem refuses_parse (document : Json) : Refuses (parse document) := by
  unfold parse
  split
  · exact failsWith_ok _
  · exact refuses_parseComputed _
  · exact failsWith_error.mpr rfl

end Field

/-- A step of a path is refused for its kind, or for being neither a text nor a single entry. -/
theorem JoinStep.refuses_parse (document : Json) : Refuses (parse document) := by
  unfold parse JoinKind.parse
  split
  · exact failsWith_ok _
  · refine .bind ?_ fun _ _ => failsWith_ok _
    split
    · exact failsWith_ok _
    · exact failsWith_error.mpr rfl
  · exact failsWith_error.mpr rfl
  · exact failsWith_error.mpr rfl

/-- A path is refused for one of its steps, or for being no list. -/
theorem JoinPath.refuses_parse (document : Json) : Refuses (parse document) := by
  unfold parse
  split
  · exact failsWith_ok _
  · exact .mapM fun step _ => JoinStep.refuses_parse step
  · exact failsWith_error.mpr rfl

namespace Request

/-- A request that has to be a record is refused for being none. -/
theorem refuses_object (hook : String) (document : Json) : Refuses (object hook document) := by
  unfold object
  split
  · exact failsWith_ok _
  · exact failsWith_error.mpr rfl

/-- A number is refused if it is neither an integer nor a text that reads as one. -/
theorem refuses_integer (fields : Dict Json) (key : String) : Refuses (integer fields key) := by
  unfold integer
  split
  · exact failsWith_ok _
  · exact failsWith_ok _
  · exact failsWith_ok _
  · split
    · exact failsWith_ok _
    · exact failsWith_error.mpr rfl
  · exact failsWith_error.mpr rfl

/-- A term is refused for a record, also for one in a list. -/
theorem refuses_term (document : Json) : Refuses (term document) := by
  refine .mapError ?_ _
  exact fun _ => rfl

/-- A reference to a scope is refused if its name is no text, or its value no term. -/
theorem refuses_scope (fields : Dict Json) : Refuses (scope fields) := by
  unfold scope
  split
  · exact failsWith_ok _
  · split
    · exact failsWith_ok _
    · exact (refuses_term _).map
  · exact failsWith_error.mpr rfl

end Request

/-- A criterion is refused for a term that its operator cannot use. -/
theorem Criterion.refuses_check (c : Criterion) : Refuses c.check := by
  unfold check
  split
  · exact failsWith_ok _
  · exact failsWith_error.mpr rfl

/-! ### Searches -/

variable {q : Query}

namespace StrictSearch

/-- The field of a criterion is refused as fields are; without one, the name of the entry counts. -/
theorem refuses_field (name : String) (fields : Dict Json) : Refuses (field name fields) := by
  unfold field
  split
  · exact Field.refuses_parse _
  · exact failsWith_ok _

/-- The path of a criterion is refused as paths are. -/
theorem refuses_path (fields : Dict Json) : Refuses (path fields) := by
  unfold path
  split
  · exact JoinPath.refuses_parse _
  · exact failsWith_ok _

/-- An operator is refused if it is missing, no text, or not known. -/
theorem refuses_operator (hook : String) (fields : Dict Json) :
    Refuses (operator hook fields) := by
  unfold operator SearchOperator.parse
  split
  · exact failsWith_error.mpr rfl
  · split
    · exact failsWith_ok _
    · exact failsWith_error.mpr rfl
  · exact failsWith_error.mpr rfl

/-- The term of a criterion is refused if it is missing, or as terms are. -/
theorem refuses_term (hook : String) (fields : Dict Json) : Refuses (term hook fields) := by
  unfold term
  split
  · exact failsWith_error.mpr rfl
  · exact Request.refuses_term _

/-- A criterion is refused for one of its parts, or for a term that does not fit. -/
theorem refuses_entry (hook name : String) (fields : Dict Json) :
    Refuses (entry hook name fields) := by
  refine (refuses_field name fields).bind fun field _ => ?_
  refine (refuses_path fields).bind fun path _ => ?_
  refine (refuses_operator hook fields).bind fun operator _ => ?_
  refine (refuses_term hook fields).bind fun term _ => ?_
  refine .bind (.mapError ?_ _) fun combine _ => ?_
  · exact fun _ => rfl
  · exact (Criterion.refuses_check _).bind fun _ _ => failsWith_ok _

/-- A search by a scope is refused if there is no such scope, or for a value that is no term. -/
theorem refuses_expand (hscopes : q.entity.ScopesSucceed) (name : String) (value : Json) :
    Refuses (expand q name value) := by
  refine Entity.refuses_scope.bind fun scope hscope => ?_
  exact (Request.refuses_term value).bind fun t _ => Entity.refuses_of_scope hscopes.search hscope t

/-- A strict search is refused for one of its entries. -/
theorem refuses_normalise (hscopes : q.entity.ScopesSucceed) (request : Json) :
    Refuses (normalise q request) := by
  refine (Request.refuses_object "search" request).bind fun entries _ => .mapM fun entry _ => ?_
  unfold normaliseEntry
  simp only
  split
  · exact (refuses_entry _ _ _).bind fun _ _ => failsWith_ok _
  · exact (refuses_expand hscopes _ _).bind fun _ _ => failsWith_ok _

end StrictSearch

namespace LenientSearch

/-- An entry of a lenient search is refused for its field, its path or its term, if nothing leaves
it out before. -/
theorem refuses_entry (name : String) (fields : Dict Json) : Refuses (entry name fields) := by
  unfold entry
  split
  · refine (StrictSearch.refuses_field name fields).bind fun field _ => ?_
    refine (StrictSearch.refuses_path fields).bind fun path _ => ?_
    exact (Request.refuses_term _).bind fun term _ => failsWith_ok _
  · exact failsWith_ok _

/-- A lenient search is refused for one of its entries, or for a scope that is not known. -/
theorem refuses_normalise (hscopes : q.entity.ScopesSucceed) (request : Json) :
    Refuses (normalise q request) := by
  refine (Request.refuses_object "legacy_search" request).bind fun entries _ => ?_
  refine .bind (.mapM fun entry _ => ?_) fun _ _ => failsWith_ok _
  unfold normaliseEntry
  simp only
  split
  · exact (refuses_entry _ _).bind fun _ _ => failsWith_ok _
  · exact (StrictSearch.refuses_expand hscopes _ _).map.bind fun _ _ => failsWith_ok _

end LenientSearch

/-! ### Orderings -/

namespace StrictSort

/-- A strict ordering is refused unless it is a list or a single record. -/
theorem refuses_items (hook : String) (document : Json) : Refuses (items hook document) := by
  unfold items
  split
  · exact failsWith_ok _
  · exact failsWith_ok _
  · exact failsWith_error.mpr rfl

/-- An ordering by a scope is refused as references are, or if there is no such scope. -/
theorem refuses_expand (hscopes : q.entity.ScopesSucceed) (fields : Dict Json) :
    Refuses (expand q fields) := by
  refine (Request.refuses_scope fields).bind fun reference _ => ?_
  split
  · exact failsWith_ok _
  · rename_i name value _
    refine Entity.refuses_scope.bind fun scope hscope => ?_
    exact (Entity.refuses_of_scope hscopes.sort hscope value).bind fun _ _ => failsWith_ok _

/-- The path of a key is refused as paths are. -/
theorem refuses_path (fields : Dict Json) : Refuses (path fields) := by
  unfold path
  split
  · exact JoinPath.refuses_parse _
  · exact failsWith_ok _

/-- A direction is refused if it is missing, no text, or not known. -/
theorem refuses_direction (fields : Dict Json) : Refuses (direction fields) := by
  unfold direction Direction.parse
  split
  · exact failsWith_error.mpr rfl
  · exact failsWith_error.mpr rfl
  · split
    · exact failsWith_ok _
    · exact failsWith_error.mpr rfl
  · exact failsWith_error.mpr rfl

/-- A key is refused for one of its parts. -/
theorem refuses_written (fields : Dict Json) : Refuses (written fields) := by
  unfold written field ignoreCase
  refine .bind ?_ fun field _ => ?_
  · split
    · exact Field.refuses_parse _
    · exact failsWith_error.mpr rfl
  · refine (refuses_path fields).bind fun path _ => ?_
    refine (refuses_direction fields).bind fun direction _ => ?_
    refine .bind ?_ fun _ _ => failsWith_ok _
    split
    · exact failsWith_ok _
    · exact failsWith_ok _
    · exact failsWith_ok _
    · exact failsWith_error.mpr rfl

/-- A strict ordering is refused for one of its keys. -/
theorem refuses_normalise (hscopes : q.entity.ScopesSucceed) (request : Json) :
    Refuses (normalise q request) := by
  refine (refuses_items "sort" request).bind fun items _ => .mapM fun document _ => ?_
  refine (Request.refuses_object "sort" document).bind fun fields _ => ?_
  refine (refuses_expand hscopes fields).bind fun key _ => ?_
  split
  · exact failsWith_ok _
  · exact refuses_written fields

end StrictSort

namespace LenientSort

/-- A key of a lenient ordering is refused for its path or its field. -/
theorem refuses_written (fields : Dict Json) : Refuses (written fields) := by
  unfold written
  split
  · exact failsWith_ok _
  · refine (StrictSort.refuses_path fields).bind fun path _ => ?_
    exact (Field.refuses_parse _).bind fun field _ => failsWith_ok _

/-- A lenient ordering is refused unless it is a list, a record or a text. -/
theorem refuses_items (document : Json) : Refuses (items document) := by
  unfold items
  split
  · exact failsWith_ok _
  · exact StrictSort.refuses_items _ _

/-- A lenient ordering is refused for one of its keys. -/
theorem refuses_normalise (hscopes : q.entity.ScopesSucceed) (request : Json) :
    Refuses (normalise q request) := by
  refine (refuses_items request).bind fun items _ => ?_
  refine .bind (.mapM fun document _ => ?_) fun _ _ => failsWith_ok _
  unfold item
  split
  · exact failsWith_ok _
  -- only a record can be refused: a text that names no key and all else is passed over
  · rename_i fields _
    refine (StrictSort.refuses_expand hscopes fields).bind fun key _ => ?_
    split
    · exact failsWith_ok _
    · exact refuses_written fields
  · exact failsWith_ok _

end LenientSort

/-! ### Pages -/

/-- A page is refused for its numbers, or for a scope that is not known. -/
theorem OffsetPage.refuses_read (hscopes : q.entity.ScopesSucceed) (request : Json)
    (perPage : Int64) : Refuses (read q request perPage) := by
  refine (Request.refuses_object "paginate" request).bind fun fields _ => ?_
  refine (Request.refuses_scope fields).bind fun reference _ => ?_
  split
  -- a scope takes the place of both numbers
  · rename_i name value _
    refine Entity.refuses_scope.bind fun scope hscope => ?_
    exact (Entity.refuses_of_scope hscopes.page hscope value).bind fun _ _ => failsWith_ok _
  · refine (Request.refuses_integer fields "per_page").bind fun size _ => ?_
    exact (Request.refuses_integer fields "page").bind fun page _ => failsWith_ok _

namespace KeysetPage

/-- The column of a page by key is refused if it is no text, and if there is none and the entity has
no primary key either. -/
theorem refuses_keyColumn (entity : Entity) (fields : Dict Json) :
    Refuses (keyColumn entity fields) := by
  unfold keyColumn
  split
  · exact failsWith_ok _
  · split
    · exact failsWith_ok _
    · exact failsWith_error.mpr rfl
  · split
    · exact failsWith_ok _
    · exact failsWith_error.mpr rfl
  · exact failsWith_error.mpr rfl

/-- The last key is refused as terms are. -/
theorem refuses_lastSeen (fields : Dict Json) : Refuses (lastSeen fields) := by
  unfold lastSeen
  split
  · exact Request.refuses_term _
  · exact failsWith_ok _

/-- A page by key is refused for its size, its last key, or a column that does not identify rows. -/
theorem refuses_normalise (q : Query) (request : Json) (perPage : Int64) :
    Refuses (normalise q request perPage) := by
  refine (Request.refuses_object "keyset_paginate" request).bind fun fields _ => ?_
  refine (refuses_keyColumn q.entity fields).bind fun keyField _ => ?_
  split
  · exact failsWith_error.mpr rfl
  · refine (refuses_lastSeen fields).bind fun lastSeenKey _ => ?_
    refine (Request.refuses_integer fields "per_page").bind fun size _ => ?_
    exact (Request.refuses_integer fields "page").bind fun page _ => failsWith_ok _

end KeysetPage

/-! ### Fields as operands -/

namespace Query

open Error (Blames OfName)

/-- A column becomes an operand unless its name is no identifier. -/
theorem ofName_columnOperand (b : Binding) (name : String) :
    FailsWith (OfName (· = name)) (columnOperand b name) := by
  unfold columnOperand
  split
  · exact failsWith_ok _
  · rename_i fault hfault
    exact failsWith_error.mpr ⟨name, fault, rfl, hfault, rfl⟩

/-- A column of a field is refused for itself, and so for one of the columns of the field. -/
theorem ofName_columnOperand_of_mem (b : Binding) {field : Field} {name : String}
    (h : name ∈ field.columns) : FailsWith (OfName (· ∈ field.columns)) (columnOperand b name) := by
  refine (ofName_columnOperand b name).mono fun e he => he.mono ?_
  rintro _ rfl
  exact h

/-- The columns of what a name stands for have been looked at when its entity was registered. -/
theorem not_ofName_computed {registry : Registry} {entity name : String} {found : Entity}
    {field : Field} {e : Error} (hfound : registry.get? entity = some found)
    (hfield : found.computed? name = some field) : ¬ e.OfName (· ∈ field.columns) := by
  rintro ⟨column, fault, hcolumn, hfault, -⟩
  obtain ⟨ident, hident⟩ := Entity.exists_parse_of_computed?
    (Registry.validate_of_get? hfound) hfield hcolumn
  rw [hident] at hfault
  cases hfault

/-- A field as it is written becomes an operand unless one of its columns is no identifier, or its
template does not take so many. -/
theorem blames_writtenOperand (b : Binding) (field : Field) :
    FailsWith (Blames (· ∈ field.columns)) (writtenOperand b field) := by
  -- every column of the field is resolved by itself, and blamed by its own name
  have hcolumn : ∀ name ∈ field.columns,
      FailsWith (Blames (· ∈ field.columns)) (columnOperand b name) :=
    fun name hname => (ofName_columnOperand_of_mem b hname).mono fun _ => .inr
  cases field with
  | column name => exact hcolumn name (List.mem_singleton.mpr rfl)
  | computed template args =>
    refine (FailsWith.mapM hcolumn).bind fun columns _ => ?_
    split
    · exact failsWith_ok _
    · exact failsWith_error.mpr (.inl rfl)

/-- A field is refused for one of its columns, also where it is a name for another field. -/
theorem blames_operand (q : Query) (b : Binding) (field : Field) :
    FailsWith (Blames (· ∈ field.columns)) (q.operand b field) := by
  cases field with
  | computed template args => exact blames_writtenOperand b (.computed template args)
  | column name =>
    rw [operand, fieldAt]
    cases hfound : (q.entityOf b).bind fun entity => entity.computed? name with
    | none => exact blames_writtenOperand b (.column name)
    | some registered =>
      obtain ⟨entity, hentity, hcomputed⟩ := Option.bind_eq_some_iff.mp hfound
      refine (blames_writtenOperand b registered).mono fun e he => he.imp_right fun hname => ?_
      -- the entity has been registered, and with it the columns of its computed fields
      exact absurd hname (not_ofName_computed hentity hcomputed)

end Query

/-- An operator refuses a term of another shape. -/
theorem SearchOperator.refuses_condition (lhs : Sql.Operand) (operator : SearchOperator)
    (term : Term) : Refuses (operator.condition lhs term) := by
  unfold condition
  split
  all_goals try split
  all_goals first
    | exact failsWith_ok _
    | exact failsWith_error.mpr rfl

/-! ### Parameters that are applied -/

/-- Wildcards change the term, and not the field. -/
theorem Criterion.field_withWildcards (c : Criterion) : c.withWildcards.field = c.field := by
  unfold withWildcards
  split <;> rfl

namespace Query

open Error (Blames)

/-- A criterion that has been read fails for a column of its field alone. -/
theorem blames_search (q : Query) (c : Criterion) :
    FailsWith (Blames (· ∈ c.field.columns)) (q.search c) := by
  unfold search
  split
  · exact failsWith_ok _
  -- an error is that of the check, of the operand or of the operator
  · refine (c.refuses_check.blames _).bind fun _ _ => ?_
    refine (blames_operand _ _ c.field).bind fun operand _ => ?_
    refine ((SearchOperator.refuses_condition operand c.operator c.term).blames _).bind ?_
    exact fun condition _ => failsWith_ok _

/-- So does a criterion of a lenient search. -/
theorem blames_searchLeniently (q : Query) (c : Criterion) :
    FailsWith (Blames (· ∈ c.field.columns)) (q.searchLeniently c) := by
  unfold searchLeniently
  split
  · rw [← c.field_withWildcards]
    exact blames_search q c.withWildcards
  · exact failsWith_ok _

/-- So does a key of an ordering. -/
theorem blames_sort (q : Query) (key : SortKey) :
    FailsWith (Blames (· ∈ key.field.columns)) (q.sort key) := by
  unfold sort
  split
  · exact failsWith_ok _
  · exact (blames_operand _ _ key.field).bind fun operand _ => failsWith_ok _

/-- A page by key that has been read fails for its column alone. -/
theorem blames_pageAfter (q : Query) (p : KeysetPage) :
    FailsWith (Blames (· ∈ [p.keyField])) (q.pageAfter p) := by
  unfold pageAfter after
  refine .map ?_
  split
  · exact failsWith_ok _
  · refine ((ofName_columnOperand q.base p.keyField).mono fun e he => ?_).map
    exact Blames.mono (.inr he) fun _ => List.mem_singleton.mpr

end Query

namespace Builtin

open Error (Blames)

/-- The columns that parameters name: those of the fields that are searched or ordered by, and the
key of a page. -/
def columns : (b : Builtin) → b.Parameters → List String
  | search | lenientSearch => fun criteria => criteria.flatMap fun entry => entry.2.field.columns
  | sort | lenientSort => fun keys => keys.flatMap fun key => key.field.columns
  | offsetPage => fun _ => []
  | keysetPage => fun p => [p.keyField]

/-- Parameters that are applied item by item are refused for what an item is refused for. -/
theorem blames_foldlM {α : Type} {f : Query → α → Except Error Query} {names : α → List String}
    (h : ∀ q x, FailsWith (Blames (· ∈ names x)) (f q x)) (xs : List α) (q : Query) :
    FailsWith (Blames (· ∈ xs.flatMap names)) (xs.foldlM f q) := by
  refine FailsWith.foldlM (fun x hx r => (h r x).mono fun e he => he.mono ?_) q
  exact fun name hname => List.mem_flatMap.mpr ⟨x, hx, hname⟩

/-- Parameters are refused for a column that they name, if not for their configuration. -/
theorem blames_apply (b : Builtin) (q : Query) (p : b.Parameters) :
    FailsWith (Blames (· ∈ b.columns p)) (b.apply q p) := by
  cases b with
  | search => exact blames_foldlM (fun q entry => q.blames_search entry.2) p q
  | lenientSearch => exact blames_foldlM (fun q entry => q.blames_searchLeniently entry.2) p q
  | sort | lenientSort => exact blames_foldlM Query.blames_sort p q
  | offsetPage => exact failsWith_ok _
  | keysetPage => exact q.blames_pageAfter p

/-- A document is refused for a column that its parameters name, if not for its configuration. -/
theorem blames_run {Named : String → Prop} {b : Builtin} {document : Json}
    (h : ∀ p, b.decode document = .ok p → ∀ name ∈ b.columns p, Named name) (q : Query) :
    FailsWith (Blames Named) (b.run q document) := by
  rw [run_eq]
  refine FailsWith.bind (.mapError (fun _ => .inl rfl) _) fun p hp => ?_
  exact (blames_apply b q p).mono fun e he => he.mono (h p (Except.mapError_ok hp))

end Builtin

end Listing
