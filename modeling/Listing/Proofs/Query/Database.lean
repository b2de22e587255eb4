import Listing.Proofs.Query.Clause
import Mathlib.Data.List.Dedup
import Mathlib.Data.List.Sort

namespace Listing

/-!
# Queries on databases

What the statements of a query give on the contents of a database, as SQL has it: the row sources
are joined from left to right, a tuple stays if the conditions are true of it, and the base rows of
the tuples that stay are selected, or counted.

* `Record`, `Table`, `Tuple` — a row of a table, a table, and one row of each source;
* `Database` — the tables, with what is left to the database: the truth of an atom on a tuple, and
  the arrangement of tuples by an ordering;
* `Selection`, `Selection.tuples`, `Selection.kept` — row sources with a condition, the tuples of
  the sources, and those that the condition lets stay;
* `Counting`, `Counting.number` — what a counting statement counts, and what comes out;
* `Query.rows` — what the selecting statement gives;
* `Query.mem_kept_iff` — the tuples that stay are those of which the `WHERE` clause is true;
* `Database.ordered` — a database of ordered values, in which all this can be computed.
-/

open Sql (Atom Condition Token)

variable {V : Type}

/-! ### Tables -/

/-- The name under which a table or a column is stored; only quotes keep capital letters. -/
def Ident.stored : Ident → String
  | bare name => String.ofList (name.toList.map Char.toLower)
  | quoted name => name

/-- A row of a table: its cells by column.  A cell without a value is null. -/
abbrev Record (V : Type) := Dict (Option V)

namespace Record

/-- The value in a column, if it is not null. -/
def value? (r : Record V) (column : Ident) : Option V := (Dict.get? r column.stored).join

/-- The value in a column that is named by a declared text. -/
def named? (r : Record V) (column : String) : Option V :=
  (Ident.parse column).toOption.bind r.value?

/-- A column that reads as an identifier has the value of that identifier. -/
theorem named?_of_parse {column : String} {ident : Ident} (h : Ident.parse column = .ok ident)
    (r : Record V) : r.named? column = r.value? ident := by
  rw [named?, h]
  rfl

end Record

/-- A table; each of its rows has a cell in every column. -/
structure Table (V : Type) where
  columns : List String
  rows : List (Record V)
  shaped : ∀ r ∈ rows, Dict.keys r = columns

namespace Table

/-- The row that stands for a partner that is missing: all its cells are null. -/
def missing (table : Table V) : Record V := table.columns.map fun column => (column, none)

/-- The column tells the rows apart: it has a value in each row, and none of them twice. -/
structure IsKey (table : Table V) (column : String) : Prop where
  present : ∀ r ∈ table.rows, (r.named? column).isSome = true
  distinct : (table.rows.map fun r => r.named? column).Nodup

/-- A table with a key has no row twice. -/
theorem IsKey.nodup {table : Table V} {column : String} (h : table.IsKey column) :
    table.rows.Nodup := h.distinct.of_map

end Table

/-- One row of each source, by the alias of the source; that of the base comes first. -/
abbrev Tuple (V : Type) := List (Sql.Alias × Record V)

/-- The row of a source; a source that is not there has no cells. -/
def Tuple.row (t : Tuple V) (source : Sql.Alias) : Record V := (List.lookup source t).getD []

/-- The source that stands first gives the row that stands first. -/
@[simp]
theorem Tuple.row_cons (source : Sql.Alias) (r : Record V) (joined : Tuple V) :
    Tuple.row ((source, r) :: joined) source = r := by
  simp [Tuple.row]

/-- Tuples of one row each have these rows. -/
theorem Tuple.map_row_single (source : Sql.Alias) (rows : List (Record V)) :
    (rows.map fun r => [(source, r)]).map (fun t => Tuple.row t source) = rows := by
  rw [List.map_map]
  refine (List.map_congr_left ?_).trans (List.map_id rows)
  intro r _
  exact Tuple.row_cons source r []

/-- The tuple starts with one of the rows, under the alias. -/
def Tuple.Begins (t : Tuple V) (source : Sql.Alias) (rows : List (Record V)) : Prop :=
  ∃ r ∈ rows, ∃ joined, t = (source, r) :: joined

namespace Tuple.Begins

variable {t : Tuple V} {source : Sql.Alias} {rows : List (Record V)}

/-- What a tuple begins with stays when more is joined to it. -/
theorem append (h : t.Begins source rows) (more : Tuple V) :
    Tuple.Begins (t ++ more) source rows := by
  obtain ⟨r, hr, joined, rfl⟩ := h
  exact ⟨r, hr, joined ++ more, rfl⟩

/-- The row under the alias is the first one, whatever follows. -/
theorem row_append (h : t.Begins source rows) (more : Tuple V) :
    Tuple.row (t ++ more) source = t.row source := by
  obtain ⟨r, -, joined, rfl⟩ := h
  rw [List.cons_append, Tuple.row_cons, Tuple.row_cons]

/-- The row of the source it begins with is one of the rows. -/
theorem row_mem (h : t.Begins source rows) : t.row source ∈ rows := by
  obtain ⟨r, hr, joined, rfl⟩ := h
  rwa [Tuple.row_cons]

end Tuple.Begins

/-- The tables under the names that statements use, with what is left to the database. -/
structure Database (V : Type) where
  table : String → Table V
  /-- The truth value of an atom on a tuple. -/
  judge : Tuple V → Atom Term → Truth
  /-- The tuples in the order that an ordering asks for. -/
  arrange : List OrderItem → List (Tuple V) → List (Tuple V)
  arrange_perm : ∀ order ts, (arrange order ts).Perm ts

/-! ### Selections -/

/-- The keys of a row and of its partner both have values, and these are equal. -/
def JoinOn.holds [DecidableEq V] (on : JoinOn) (t : Tuple V) (partner : Record V) : Bool :=
  match partner.named? on.relatedKey, (t.row on.owner).named? on.ownerKey with
  | some x, some y => x = y
  | _, _ => false

namespace Join

variable [DecidableEq V]

/-- The rows of the joined table that belong to a tuple. -/
def partners (db : Database V) (j : Join) (t : Tuple V) : List (Record V) :=
  let found := (db.table j.table).rows.filter fun r => j.on.all fun on => on.holds t r
  -- a left join keeps the tuples without a partner
  if j.kind = .left ∧ found = [] then [(db.table j.table).missing] else found

/-- The tuples that a join makes of one. -/
def extend (db : Database V) (j : Join) (t : Tuple V) : List (Tuple V) :=
  (j.partners db t).map fun r => t ++ [(j.source, r)]

/-- Joining leaves in place what the tuples begin with. -/
theorem begins_extend {db : Database V} {j : Join} {ts : List (Tuple V)} {source : Sql.Alias}
    {rows : List (Record V)} (h : ∀ t ∈ ts, t.Begins source rows) :
    ∀ t ∈ ts.flatMap (j.extend db), t.Begins source rows := by
  intro t ht
  obtain ⟨t', ht', hextend⟩ := List.mem_flatMap.mp ht
  obtain ⟨partner, -, rfl⟩ := List.mem_map.mp hextend
  exact (h t' ht').append _

end Join

/-- The part that the statements of a query share: row sources with a condition. -/
structure Selection where
  table : String
  source : Sql.Alias
  joins : List Join
  condition : Condition

namespace Selection

/-- The row sources and the condition as they stand in a statement. -/
def tokens (s : Selection) : List Token :=
  let clause := s.condition.tokens 0
  .keyword .from_ :: (aliased s.table s.source ++ s.joins.flatMap Join.tokens) ++
    if clause.isEmpty then [] else .keyword .where_ :: clause

variable [DecidableEq V]

/-- The tuples of the row sources. -/
def tuples (db : Database V) (s : Selection) : List (Tuple V) :=
  s.joins.foldl (fun ts j => ts.flatMap (j.extend db))
    ((db.table s.table).rows.map fun r => [(s.source, r)])

/-- The tuples of which the condition is true. -/
def kept (db : Database V) (s : Selection) : List (Tuple V) :=
  (s.tuples db).filter fun t => s.condition.restriction (db.judge t) = .yes

/-- A tuple of the row sources starts with a row of the base. -/
theorem begins_of_mem_tuples {db : Database V} {s : Selection} :
    ∀ t ∈ s.tuples db, t.Begins s.source (db.table s.table).rows := by
  -- later joins only append to the tuples, so the induction is on the joins that are left
  have hjoins (joins : List Join) (ts : List (Tuple V))
      (hts : ∀ t ∈ ts, t.Begins s.source (db.table s.table).rows) :
      ∀ t ∈ joins.foldl (fun ts j => ts.flatMap (j.extend db)) ts,
        t.Begins s.source (db.table s.table).rows := by
    induction joins generalizing ts with
    | nil => exact hts
    | cons j rest ih => exact ih _ (Join.begins_extend hts)
  refine hjoins s.joins _ ?_
  refine List.forall_mem_map.mpr ?_
  intro r hr
  exact ⟨r, hr, [], rfl⟩

/-- The base row of a tuple that stays is a row of the base table. -/
theorem row_of_mem_kept {db : Database V} {s : Selection} {t : Tuple V} (h : t ∈ s.kept db) :
    t.row s.source ∈ (db.table s.table).rows :=
  (begins_of_mem_tuples t (List.mem_of_mem_filter h)).row_mem

/-- The base rows of the tuples that stay. -/
def rows (db : Database V) (s : Selection) : List (Record V) :=
  (s.kept db).map fun t => t.row s.source

/-- Without joins the condition is looked at row by row. -/
theorem rows_of_joins_eq_nil (db : Database V) {s : Selection} (h : s.joins = []) :
    s.rows db = (db.table s.table).rows.filter fun r =>
      s.condition.restriction (db.judge [(s.source, r)]) = .yes := by
  have htuples : s.tuples db = (db.table s.table).rows.map fun r => [(s.source, r)] := by
    rw [tuples, h]
    rfl
  rw [rows, kept, htuples, List.filter_map, Tuple.map_row_single]
  rfl

/-- Every selected row is one of the table. -/
theorem mem_table_of_mem_rows {db : Database V} {s : Selection} {r : Record V}
    (h : r ∈ s.rows db) : r ∈ (db.table s.table).rows := by
  obtain ⟨t, ht, rfl⟩ := List.mem_map.mp h
  exact row_of_mem_kept ht

end Selection

/-! ### Counts -/

/-- What a counting statement counts: the distinct values of a column of the base, or its distinct
rows. -/
inductive Counting
  | keys (column : String)
  | rows
  deriving DecidableEq, Repr

namespace Counting

/-- The statement that counts in a selection. -/
def tokens (s : Selection) : Counting → List Token
  | keys column =>
    [.keyword .select, .call .count, .keyword .distinct, .source s.source, .dot, .name column,
      .closeParen] ++ s.tokens
  | rows =>
    [.keyword .select, .call .count, .star, .closeParen, .keyword .from_, .openParen,
      .keyword .select, .keyword .distinct, .source s.source, .dot, .star] ++ s.tokens ++
      [.closeParen, .keyword .as_, .name "t"]

/-- The number that the statement gives; a count of values passes over nulls. -/
def number [DecidableEq V] (db : Database V) (s : Selection) : Counting → Nat
  | keys column => ((s.rows db).filterMap fun r => r.named? column).dedup.length
  | rows => (s.rows db).dedup.length

end Counting

namespace Query

/-- The row sources of a query with its condition. -/
def selection (q : Query) : Selection := ⟨q.entity.table, q.base.source, q.joins, q.condition⟩

/-- What the count of a query counts. -/
def counting (q : Query) : Counting :=
  match q.entity.primaryKey with
  | some key => .keys key
  | none => .rows

/-- The counting statement counts in the selection of the query. -/
theorem countTokens_eq (q : Query) : q.countTokens = q.counting.tokens q.selection := by
  rw [countTokens, counting]
  cases q.entity.primaryKey with
  | some key => exact List.append_assoc ..
  | none => exact congrArg (· ++ _) (List.append_assoc ..)

/-! ### Rows -/

/-- The query without its ordering and its window. -/
def plain (q : Query) : Query := { q with order := [], limit := none, offset := none }

/-- Without ordering and window, the selecting statement has the selection after its list of
columns. -/
theorem selectTokens_plain (q : Query) :
    q.plain.selectTokens =
      [.keyword .select, .source q.base.source, .dot, .star] ++ q.selection.tokens := by
  have htrailer : q.plain.selectTokens = [.keyword .select, .source q.base.source, .dot, .star] ++
      q.fromTokens ++ q.whereTokens ++ [] ++ [] := rfl
  rw [htrailer, List.append_nil, List.append_nil, List.append_assoc]
  rfl

variable [DecidableEq V]

/-- The rows that the selecting statement gives but for its window, in the order of the query. -/
def allRows (db : Database V) (q : Query) : List (Record V) :=
  (db.arrange q.order (q.selection.kept db)).map fun t => t.row q.base.source

/-- The rows that the selecting statement gives. -/
def rows (db : Database V) (q : Query) : List (Record V) :=
  let after := (q.allRows db).drop ((q.offset.map fun n => n.toInt.toNat).getD 0)
  match q.limit with
  | some n => after.take n.toInt.toNat
  | none => after

/-- Ordering gives the same rows in another order. -/
theorem allRows_perm (db : Database V) (q : Query) : (q.allRows db).Perm (q.selection.rows db) :=
  (db.arrange_perm q.order _).map _

/-- Without a window all rows are given. -/
theorem rows_plain (db : Database V) (q : Query) : q.plain.rows db = q.plain.allRows db := rfl

/-- A tuple stays if the `WHERE` clause of the query, as its text is read, is true of it. -/
theorem mem_kept_iff {q : Query} (hq : q.Sound) {db : Database V} {t : Tuple V} :
    t ∈ q.selection.kept db ↔ t ∈ q.selection.tuples db ∧ q.WhereIs (db.judge t) .yes := by
  have hcondition : q.selection.condition = merged q.conjuncts := rfl
  rw [Selection.kept, List.mem_filter, decide_eq_true_iff, whereIs_iff hq, hcondition,
    restriction_merged]

end Query

/-! ### Databases of ordered values -/

/-- The value of a column in a tuple; what functions give is left open. -/
def Sql.Operand.value? (t : Tuple V) : Sql.Operand → Option V
  | column source name => (t.row source).value? name
  | _ => none

namespace Database

variable [LinearOrder V]

/-- A comparison with a value; patterns are left open. -/
def compared (comparison : Sql.Comparison) (x y : V) : Truth :=
  match comparison with
  | .eq => .ofBool (x = y)
  | .gt => .ofBool (y < x)
  | .lt => .ofBool (x < y)
  | .gteq => .ofBool (y ≤ x)
  | .lteq => .ofBool (x ≤ y)
  | .like | .ilike => .unknown

/-- The truth value of an atom when some terms stand for values; with anything else it is not
known. -/
def judged (value : Term → Option V) (t : Tuple V) : Atom Term → Truth
  | .compare lhs comparison term =>
    match lhs.value? t, value term with
    | some x, some y => compared comparison x y
    | _, _ => .unknown
  | .nullness lhs expected => .ofBool ((lhs.value? t).isNone = expected)
  | .inList lhs terms negated =>
    let found := Truth.disj (terms.map fun term =>
      match lhs.value? t, value term with
      | some x, some y => compared .eq x y
      | _, _ => .unknown)
    if negated then found.not else found

/-- Whether a value may stand before another one; nulls come last. -/
def noLater : Option V → Option V → Bool
  | some x, some y => x ≤ y
  | none, some _ => false
  | _, none => true

/-- Of two values one is no later than the other. -/
theorem noLater_total (x y : Option V) : noLater x y = true ∨ noLater y x = true := by
  cases x <;> cases y <;> simp [noLater, le_total]

/-- What is no later than a value is no later than those after it. -/
theorem noLater_trans {x y z : Option V} (hxy : noLater x y = true) (hyz : noLater y z = true) :
    noLater x z = true := by
  cases x <;> cases y <;> cases z <;> simp_all [noLater]
  exact hxy.trans hyz

/-- Whether a tuple may stand before another one by one key of an ordering. -/
def inOrder (item : OrderItem) (t u : Tuple V) : Bool :=
  match item.direction with
  | .asc => noLater (item.operand.value? t) (item.operand.value? u)
  | .desc => noLater (item.operand.value? u) (item.operand.value? t)

/-- The tuples sorted by the keys of an ordering, the last key first. -/
def sorted (order : List OrderItem) (ts : List (Tuple V)) : List (Tuple V) :=
  order.foldr (fun item ts => ts.insertionSort fun t u => inOrder item t u) ts

/-- Ordering keeps the tuples. -/
theorem sorted_perm (order : List OrderItem) (ts : List (Tuple V)) : (sorted order ts).Perm ts := by
  induction order with
  | nil => exact List.Perm.refl ts
  | cons item rest ih => exact (List.perm_insertionSort _ _).trans ih

/-- Sorted by one key, each tuple may stand before those behind it. -/
theorem pairwise_sorted (item : OrderItem) (ts : List (Tuple V)) :
    (sorted [item] ts).Pairwise fun t u => inOrder item t u = true := by
  have : Std.Total fun t u => inOrder (V := V) item t u = true := by
    refine ⟨fun t u => ?_⟩
    unfold inOrder
    cases item.direction
    · exact noLater_total _ _
    · exact noLater_total _ _
  have : IsTrans (Tuple V) fun t u => inOrder item t u = true := by
    refine ⟨fun t u v => ?_⟩
    unfold inOrder
    cases item.direction
    · exact noLater_trans
    · exact fun htu huv => noLater_trans huv htu
  -- the order is total and transitive, which is what insertion needs
  exact List.pairwise_insertionSort _ ts

/-- A database in which some terms stand for values of a linear order. -/
def ordered (value : Term → Option V) (table : String → Table V) : Database V :=
  ⟨table, judged value, sorted, sorted_perm⟩

end Database

end Listing
