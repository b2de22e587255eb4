import Listing.Page.Offset
import Listing.Search.Criterion
import Listing.Sort.Key
import Listing.Stage.Hook

namespace Listing

/-!
# Entities

The description of one kind of row: its table and keys, its associations with other entities, its
computed fields, the scopes that stand for parts of a request, and the hooks of its stages.

* `Association` — a relation to another entity by a pair of columns;
* `Scope` — turns the value that a request supplies into a part of the request;
* `Entity` — the description, built up by `Entity.belongsTo` and the functions beside it;
* `Entity.validate` — every declared name that reaches a statement is an identifier.
-/

/-- A relation to another entity: the rows whose related key equals the owner key of a row. -/
structure Association where
  name : String
  target : String
  ownerKey : String
  relatedKey : String
  deriving DecidableEq, Repr

/-- Turns the value that a request supplies into a part of the request. -/
abbrev Scope (α : Type) := Term → Except Error α

/-- The description of one kind of row. -/
structure Entity where
  name : String
  table : String
  primaryKey : Option String
  uniqueKeys : List String
  associations : Dict Association
  computed : Dict Field
  searchScopes : Dict (Scope Criterion)
  sortScopes : Dict (Scope SortKey)
  pageScopes : Dict (Scope OffsetPage)
  hooks : Dict Hook

namespace Entity

/-! ### Describing -/

/-- An entity with nothing but its name and its table. -/
def empty (name table : String) : Entity :=
  ⟨name, table, none, [], [], [], [], [], [], []⟩

/-- The entity with a primary key of one column. -/
def withPrimaryKey (e : Entity) (column : String) : Entity := { e with primaryKey := some column }

/-- The entity with a further unique column. -/
def withUniqueKey (e : Entity) (column : String) : Entity :=
  { e with uniqueKeys := e.uniqueKeys ++ [column] }

/-- The entity with an association. -/
def associate (e : Entity) (a : Association) : Entity :=
  { e with associations := Dict.insert a.name a e.associations }

/-- A row refers to one row of the target by its `id`. -/
def belongsTo (e : Entity) (name target foreignKey : String) : Entity :=
  e.associate ⟨name, target, foreignKey, "id"⟩

/-- At most one row of the target refers to a row by its `id`. -/
def hasOne (e : Entity) (name target foreignKey : String) : Entity :=
  e.associate ⟨name, target, "id", foreignKey⟩

/-- Rows of the target refer to a row by its `id`. -/
def hasMany (e : Entity) (name target foreignKey : String) : Entity :=
  e.associate ⟨name, target, "id", foreignKey⟩

/-- The entity with a name for a field. -/
def withComputed (e : Entity) (name : String) (field : Field) : Entity :=
  { e with computed := Dict.insert name field e.computed }

/-- The entity with a search scope. -/
def withSearchScope (e : Entity) (name : String) (scope : Scope Criterion) : Entity :=
  { e with searchScopes := Dict.insert name scope e.searchScopes }

/-- The entity with a sort scope. -/
def withSortScope (e : Entity) (name : String) (scope : Scope SortKey) : Entity :=
  { e with sortScopes := Dict.insert name scope e.sortScopes }

/-- The entity with a page scope. -/
def withPageScope (e : Entity) (name : String) (scope : Scope OffsetPage) : Entity :=
  { e with pageScopes := Dict.insert name scope e.pageScopes }

/-- The entity with a hook for a stage. -/
def withHook (e : Entity) (stage : String) (hook : Hook) : Entity :=
  { e with hooks := Dict.insert stage hook e.hooks }

/-! ### Looking up -/

/-- Whether a column is the primary key or a further unique column. -/
def isUniqueKey (e : Entity) (column : String) : Bool :=
  e.primaryKey == some column || e.uniqueKeys.contains column

/-- The association of a name. -/
def association? (e : Entity) (name : String) : Option Association := Dict.get? e.associations name

/-- The field that a name stands for. -/
def computed? (e : Entity) (name : String) : Option Field := Dict.get? e.computed name

/-- The hook of a stage. -/
def hook? (e : Entity) (stage : String) : Option Hook := Dict.get? e.hooks stage

/-- The scope of a name, or the error that nobody registered it. -/
def scope {α : Type} (e : Entity) (kind : ScopeKind) (scopes : Dict (Scope α)) (name : String) :
    Except Error (Scope α) :=
  match Dict.get? scopes name with
  | some s => .ok s
  | none => .error (.unknownScope kind name e.name)

/-- The search scope of a name. -/
def searchScope (e : Entity) : String → Except Error (Scope Criterion) :=
  e.scope .search e.searchScopes

/-- The sort scope of a name. -/
def sortScope (e : Entity) : String → Except Error (Scope SortKey) := e.scope .sort e.sortScopes

/-- The page scope of a name. -/
def pageScope (e : Entity) : String → Except Error (Scope OffsetPage) :=
  e.scope .paginate e.pageScopes

/-! ### Validity -/

/-- The declared names that reach statements, in order of declaration. -/
def declaredNames (e : Entity) : List String :=
  e.table :: (e.primaryKey.toList ++ e.uniqueKeys ++
    e.associations.flatMap (fun entry => [entry.2.ownerKey, entry.2.relatedKey]) ++
    e.computed.flatMap fun entry => entry.2.columns)

/-- The fault of the first name that is no identifier. -/
def firstFault (names : List String) : Option IdentFault :=
  names.findSome? fun name =>
    match Ident.parse name with
    | .ok _ => none
    | .error fault => some fault

/-- Every declared name that reaches a statement is an identifier. -/
def validate (e : Entity) : Except Error Unit :=
  match firstFault e.declaredNames with
  | none => .ok ()
  | some fault => .error (.ofIdent fault)

/-- The outline of an entity: names only. -/
def outline (e : Entity) : String :=
  Text.Outline.record "Schema"
    [("name", Text.quoted e.name), ("table", Text.quoted e.table),
      ("primary_key", Text.Outline.optional (e.primaryKey.map Text.quoted)),
      ("unique_keys", Text.Outline.texts e.uniqueKeys),
      ("associations", Text.Outline.texts (Dict.sortedKeys e.associations)),
      ("computed", Text.Outline.texts (Dict.sortedKeys e.computed)),
      ("search_scopes", Text.Outline.texts (Dict.sortedKeys e.searchScopes)),
      ("sort_scopes", Text.Outline.texts (Dict.sortedKeys e.sortScopes)),
      ("paginate_scopes", Text.Outline.texts (Dict.sortedKeys e.pageScopes)),
      ("hooks", Text.Outline.texts (Dict.sortedKeys e.hooks))]

end Entity

end Listing
