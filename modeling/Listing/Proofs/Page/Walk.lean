import Listing.Proofs.Entity.Valid
import Listing.Proofs.Query.Database
import Listing.Proofs.Stage.Normal
import Mathlib.Data.String.Basic

namespace Listing

/-!
# Walks by key

A client lists a table page by page: each request names the last key that the client has seen, and
an empty page ends the walk.  A blank key stands for none, so after a page that ends in the empty
text the walk starts again.

* `slices` — a list in slices of a size;
* `KeyWalk` — what the requests of a walk have in common;
* `KeyWalk.Shows`, `KeyWalk.Walk` — the rows that a request gives, and the pages of a walk that
  ends;
* `KeyWalk.Keyed` — a database that compares and orders the keys of the table as values;
* `KeyWalk.shows_iff` — a request gives the first rows of those after its key;
* `KeyWalk.walk_visits_all` — when walks end, and what they show.
-/

open Sql (Operand)

/-! ### Slices -/

/-- A list in slices of a size, the last of which may be shorter. -/
def slices {α : Type} (size : Nat) : List α → List (List α)
  | [] => []
  | x :: xs => (x :: xs.take (size - 1)) :: slices size (xs.drop (size - 1))
termination_by xs => xs.length
decreasing_by
  simp only [List.length_drop, List.length_cons]
  omega

section

variable {α : Type} {size : Nat}

/-- No rows have no slice. -/
theorem slices_nil : slices size ([] : List α) = [] := by rw [slices]

/-- The first slice is what is taken first, and the others are those of the rest. -/
theorem slices_of_ne_nil (hsize : 1 ≤ size) {xs : List α} (h : xs ≠ []) :
    slices size xs = xs.take size :: slices size (xs.drop size) := by
  obtain ⟨x, xs, rfl⟩ := List.exists_cons_of_ne_nil h
  obtain ⟨n, rfl⟩ := Nat.exists_eq_add_of_le' hsize
  rw [slices]
  rfl

/-- The slices together are the list. -/
theorem flatten_slices (size : Nat) (xs : List α) : (slices size xs).flatten = xs := by
  fun_induction slices size xs with
  | case1 => rfl
  | case2 x xs ih => rw [List.flatten_cons, ih, List.cons_append, List.take_append_drop]

end

/-! ### Requests -/

/-- What the requests of a walk have in common: they list the rows of an entity by one of its unique
keys, and ask for pages of one size. -/
structure KeyWalk (V : Type) where
  registry : Registry
  name : String
  query : Query
  query_eq : Query.ofEntity registry name = .ok query
  column : String
  isUniqueKey : query.entity.isUniqueKey column = true
  fields : Dict Json
  column_eq : KeysetPage.keyColumn query.entity fields = .ok column
  fresh : Dict.get? fields "last_seen_key" = none
  perPage : Option Int64
  perPage_eq : Request.integer fields "per_page" = .ok perPage
  page : Option Int64
  page_eq : Request.integer fields "page" = .ok page
  context : Context Id
  /-- How a key is written in a request. -/
  term : V → Term

namespace KeyWalk

variable {V : Type} (w : KeyWalk V)

/-- The fields of a request: the last key seen, if there is one, stands beside the common ones. -/
def fieldsAfter : Option V → Dict Json
  | none => w.fields
  | some key => Dict.insert "last_seen_key" (w.term key).encode w.fields

/-- The page that a request asks for. -/
def pageAfter (last : Option V) : KeysetPage :=
  ⟨max (w.perPage.getD w.context.perPage) 1, max (w.page.getD 1) 1,
    (last.map w.term).getD .null, w.column⟩

/-- The number of rows on a full page. -/
def size : Nat := (max (w.perPage.getD w.context.perPage) 1).toInt.toNat

/-- A page has one row at least, whatever is asked for. -/
theorem one_le_size : 1 ≤ w.size := by
  have hone : (1 : Int64).toInt = 1 := rfl
  have hmax := toInt_max (w.perPage.getD w.context.perPage) 1
  unfold size
  omega

/-- The table that is listed. -/
def table (db : Database V) : Table V := db.table w.query.entity.table

/-- The value is the key of a row of the table. -/
def IsKeyValue (db : Database V) (v : V) : Prop :=
  ∃ r ∈ (w.table db).rows, r.named? w.column = some v

variable [DecidableEq V]

/-- A request gives the rows: its parameters are normalised and applied to the query, and the rows
are ordered by the key. -/
def Shows (db : Database V) (last : Option V) (rows : List (Record V)) : Prop :=
  ∃ document r key,
    Builtin.keysetPage.format w.query (.obj (w.fieldsAfter last)) w.context = pure document ∧
    Builtin.keysetPage.run w.query document = .ok r ∧
    Query.columnOperand w.query.base w.column = .ok key ∧
    rows = (r.orderBy key .asc).rows db

/-- The walk ends, and has shown the pages: each request names the key of the last row of the page
before it, and the first empty page is the end. -/
inductive Walk (db : Database V) : Option V → List (List (Record V)) → Prop
  | done {last : Option V} (h : w.Shows db last []) : Walk db last []
  | next {last : Option V} {page : List (Record V)} {r : Record V} {key : V}
    {pages : List (List (Record V))} (hpage : w.Shows db last page)
    (hlast : page.getLast? = some r) (hkey : r.named? w.column = some key)
    (hrest : Walk db (some key) pages) : Walk db last (page :: pages)

end KeyWalk

/-! ### What one request gives -/

namespace KeyWalk

variable {V : Type} {w : KeyWalk V}

/-- The query is the rows of an entity, with nothing added. -/
theorem query_plain (w : KeyWalk V) :
    w.query.joins = [] ∧ w.query.conjuncts = [] ∧ w.query.order = [] ∧ w.query.offset = none := by
  have hquery := w.query_eq
  unfold Query.ofEntity at hquery
  split at hquery
  · rw [← Except.ok.inj hquery]
    exact ⟨rfl, rfl, rfl, rfl⟩
  · cases hquery

/-- The key column is an operand of the base. -/
theorem exists_operand (w : KeyWalk V) :
    ∃ key, Query.columnOperand w.query.base w.column = .ok key := by
  have hquery := w.query_eq
  have hunique := w.isUniqueKey
  unfold Query.ofEntity at hquery
  split at hquery
  · rename_i entity hentity
    rw [← Except.ok.inj hquery] at hunique
    obtain ⟨ident, hident⟩ := Entity.exists_parse_of_isUniqueKey
      (Registry.validate_of_get? hentity) hunique
    refine ⟨.column w.query.base.source ident, ?_⟩
    rw [Query.columnOperand, hident]
  · cases hquery

/-- A key that is a scalar is read as it was written. -/
def Readable (w : KeyWalk V) (last : Option V) : Prop :=
  ∀ key ∈ last, (w.term key).settled = w.term key

/-- The request after a page differs in the last key alone. -/
theorem get?_fieldsAfter {other : String} (h : other ≠ "last_seen_key") (last : Option V) :
    Dict.get? (w.fieldsAfter last) other = Dict.get? w.fields other := by
  cases last with
  | none => rfl
  | some key => exact Dict.get?_insert_of_ne h _ _

/-- The last key of that request is read as the term of the value, or as null. -/
theorem lastSeen_fieldsAfter {last : Option V} (h : w.Readable last) :
    KeysetPage.lastSeen (w.fieldsAfter last) = .ok ((last.map w.term).getD .null) := by
  cases last with
  | none =>
    have hnone : Dict.get? (w.fieldsAfter none) "last_seen_key" = none := w.fresh
    rw [KeysetPage.lastSeen, hnone]
    rfl
  | some key =>
    have hsome : Dict.get? (w.fieldsAfter (some key)) "last_seen_key" = some (w.term key).encode :=
      Dict.get?_insert_self _ _ _
    rw [KeysetPage.lastSeen, hsome]
    show Request.term (w.term key).encode = _
    rw [Request.term_encode, h key rfl]
    rfl

/-- A request is normalised to the page that it asks for. -/
theorem normalise_fieldsAfter {last : Option V} (h : w.Readable last) :
    KeysetPage.normalise w.query (.obj (w.fieldsAfter last)) w.context.perPage =
      .ok (w.pageAfter last) := by
  -- column, size and page of the request do not depend on the last key
  have hcolumn : KeysetPage.keyColumn w.query.entity (w.fieldsAfter last) = .ok w.column := by
    rw [← w.column_eq, KeysetPage.keyColumn, KeysetPage.keyColumn, get?_fieldsAfter (by decide)]
  have hsize : Request.integer (w.fieldsAfter last) "per_page" = .ok w.perPage := by
    rw [← w.perPage_eq, Request.integer, Request.integer, get?_fieldsAfter (by decide)]
  have hpage : Request.integer (w.fieldsAfter last) "page" = .ok w.page := by
    rw [← w.page_eq, Request.integer, Request.integer, get?_fieldsAfter (by decide)]
  show (KeysetPage.keyColumn w.query.entity (w.fieldsAfter last) >>= _) = _
  rw [hcolumn]
  show (if !w.query.entity.isUniqueKey w.column then _ else _) = _
  rw [w.isUniqueKey]
  show (KeysetPage.lastSeen (w.fieldsAfter last) >>= _) = _
  rw [lastSeen_fieldsAfter h]
  show (Request.integer (w.fieldsAfter last) "per_page" >>= _) = _
  rw [hsize]
  show (Request.integer (w.fieldsAfter last) "page" >>= _) = _
  rw [hpage]
  rfl

/-- The query of a request: the rows after its key, if it has one, at most a page of them. -/
def queryAfter (w : KeyWalk V) (key : Operand) (last : Option V) : Query :=
  (if (w.pageAfter last).lastSeenKey.isBlank then w.query
    else w.query.also (.compare key .gt (w.pageAfter last).lastSeenKey)).withLimit
      (w.pageAfter last).perPage

/-- The query of a request has the condition on its key and no other. -/
theorem queryAfter_eq (key : Operand) (last : Option V) :
    w.queryAfter key last = { w.query with
      conjuncts := if (w.pageAfter last).lastSeenKey.isBlank then []
        else [⟨none, .compare key .gt (w.pageAfter last).lastSeenKey⟩],
      limit := some (w.pageAfter last).perPage } := by
  obtain ⟨-, hconjuncts, -, -⟩ := w.query_plain
  unfold queryAfter
  split
  · rw [← hconjuncts]
    rfl
  · rw [Query.also, hconjuncts]
    rfl

/-- Going on after a value leaves the base as it is. -/
theorem base_queryAfter (key : Operand) (last : Option V) :
    ((w.queryAfter key last).orderBy key .asc).base = w.query.base := by
  rw [queryAfter_eq]
  rfl

/-- The pages are ordered by the key, and by nothing else. -/
theorem order_queryAfter (key : Operand) (last : Option V) :
    ((w.queryAfter key last).orderBy key .asc).order = [⟨key, .asc⟩] := by
  obtain ⟨-, -, horder, -⟩ := w.query_plain
  rw [queryAfter_eq]
  show w.query.order ++ _ = _
  rw [horder]
  rfl

/-- The hook makes the query of the rows after the last value. -/
theorem run_pageAfter {key : Operand} {last : Option V} (h : w.Readable last)
    (hkey : Query.columnOperand w.query.base w.column = .ok key) :
    Builtin.keysetPage.run w.query (w.pageAfter last).encode = .ok (w.queryAfter key last) := by
  have hsettled : (w.pageAfter last).lastSeenKey.settled = (w.pageAfter last).lastSeenKey := by
    cases last with
    | none => rfl
    | some v => exact h v rfl
  have hdecode : KeysetPage.decode (w.pageAfter last).encode = .ok (w.pageAfter last) := by
    rw [KeysetPage.decode_encode, hsettled]
  have hsize : max (w.pageAfter last).perPage 1 = (w.pageAfter last).perPage := max_max_self _ _
  -- a blank key adds no condition, whatever column it is of
  have hafter : w.query.after (w.pageAfter last) =
      .ok (if (w.pageAfter last).lastSeenKey.isBlank then w.query
        else w.query.also (.compare key .gt (w.pageAfter last).lastSeenKey)) := by
    unfold Query.after
    split
    · rfl
    · rw [show (w.pageAfter last).keyField = w.column from rfl, hkey]
      rfl
  show (Builtin.decoded (KeysetPage.decode (w.pageAfter last).encode) >>= w.query.pageAfter) = _
  rw [hdecode]
  show (w.query.after (w.pageAfter last)).map _ = _
  rw [hafter, hsize]
  rfl

/-- A request gives the rows of its query, ordered by the key. -/
theorem shows_iff_queryAfter [DecidableEq V] {db : Database V} {key : Operand} {last : Option V}
    {rows : List (Record V)} (h : w.Readable last)
    (hkey : Query.columnOperand w.query.base w.column = .ok key) :
    w.Shows db last rows ↔ rows = ((w.queryAfter key last).orderBy key .asc).rows db := by
  have hformat : Builtin.keysetPage.format w.query (.obj (w.fieldsAfter last)) w.context =
      pure (w.pageAfter last).encode := by
    show liftOutcome ((KeysetPage.normalise _ _ _).map _) = _
    rw [normalise_fieldsAfter h]
    rfl
  constructor
  -- what the hook gives is unique, so a page is shown as the rows of this one query
  · rintro ⟨document, r, key', hdocument, hr, hkey', rfl⟩
    rw [hformat] at hdocument
    rw [← pure_inj hdocument, run_pageAfter h hkey] at hr
    rw [← Except.ok.inj hr, Except.ok.inj (hkey.symm.trans hkey')]
  · rintro rfl
    exact ⟨_, _, key, hformat, run_pageAfter h hkey, hkey, rfl⟩

/-! ### The rows of the table, in order -/

variable [LinearOrder V]

/-- The database compares and orders the keys of the table as values: each row has a key of its own,
the keys are written as integers or as texts, a key is greater than another one where SQL says so,
and an ascending order of the rows is one of the values. -/
structure Keyed (w : KeyWalk V) (db : Database V) : Prop where
  key : (w.table db).IsKey w.column
  kind : (∀ v, w.IsKeyValue db v → ∃ n, w.term v = .int n) ∨
    ∀ v, w.IsKeyValue db v → ∃ s, w.term v = .text s
  above : ∀ key, Query.columnOperand w.query.base w.column = .ok key →
    ∀ v, w.IsKeyValue db v → ∀ t v', (Tuple.row t w.query.base.source).named? w.column = some v' →
      (db.judge t (.compare key .gt (w.term v)) = .yes ↔ v < v')
  ascending : ∀ key, Query.columnOperand w.query.base w.column = .ok key → ∀ ts,
    (db.arrange [⟨key, .asc⟩] ts).Pairwise fun t t' => ∀ v v',
      (Tuple.row t w.query.base.source).named? w.column = some v →
      (Tuple.row t' w.query.base.source).named? w.column = some v' → v ≤ v'

/-- The key of the first row is less than that of the second. -/
def Rises (w : KeyWalk V) (r r' : Record V) : Prop :=
  ∃ v v', r.named? w.column = some v ∧ r'.named? w.column = some v' ∧ v < v'

/-- The rows of the table in ascending order of the key. -/
structure Ascending (w : KeyWalk V) (db : Database V) (rows : List (Record V)) : Prop where
  perm : rows.Perm (w.table db).rows
  rises : rows.Pairwise w.Rises

/-- Whether a row comes after a key; a blank key stands for none. -/
def isAfter (w : KeyWalk V) (last : Option V) (r : Record V) : Bool :=
  last.all fun v => (w.term v).isBlank || (r.named? w.column).any (v < ·)

/-- Every row is after no value at all. -/
theorem filter_isAfter_none (w : KeyWalk V) (rows : List (Record V)) :
    rows.filter (w.isAfter none) = rows := List.filter_eq_self.mpr fun _ _ => rfl

variable {db : Database V} {rows : List (Record V)} {last : Option V}

/-- The values of a key are read back from requests. -/
theorem Keyed.readable (h : w.Keyed db) (hlast : ∀ v ∈ last, w.IsKeyValue db v) :
    w.Readable last := by
  intro v hv
  rcases h.kind with hint | htext
  · obtain ⟨n, hn⟩ := hint v (hlast v hv)
    rw [hn]
    rfl
  · obtain ⟨s, hs⟩ := htext v (hlast v hv)
    rw [hs]
    rfl

/-- Every row of the table has a value in the key column. -/
theorem Keyed.exists_value (h : w.Keyed db) {r : Record V} (hr : r ∈ (w.table db).rows) :
    ∃ v, r.named? w.column = some v ∧ w.IsKeyValue db v := by
  obtain ⟨v, hv⟩ := Option.isSome_iff_exists.mp (h.key.present r hr)
  exact ⟨v, hv, r, hr, hv⟩

/-- The rows of a query of the base in the order that the database gives them. -/
theorem Keyed.pairwise_allRows (h : w.Keyed db) {key : Operand}
    (hkey : Query.columnOperand w.query.base w.column = .ok key) {r : Query}
    (hbase : r.base = w.query.base) (horder : r.order = [⟨key, .asc⟩]) :
    (r.allRows db).Pairwise fun a b => ∀ v v', a.named? w.column = some v →
      b.named? w.column = some v' → v ≤ v' := by
  rw [Query.allRows, horder, hbase, List.pairwise_map]
  exact h.ascending key hkey _

/-- Rows of the table in ascending order are the same whoever orders them. -/
theorem Ascending.eq_allRows (hrows : w.Ascending db rows) (h : w.Keyed db) {key : Operand}
    (hkey : Query.columnOperand w.query.base w.column = .ok key) {r : Query}
    (hbase : r.base = w.query.base) (horder : r.order = [⟨key, .asc⟩]) {p : Record V → Bool}
    (hselected : r.selection.rows db = (w.table db).rows.filter p) :
    r.allRows db = rows.filter p := by
  have hperm : (r.allRows db).Perm (rows.filter p) := by
    refine (r.allRows_perm db).trans ?_
    rw [hselected]
    exact hrows.perm.symm.filter p
  have hrises : (rows.filter p).Pairwise fun a b => ∀ v v', a.named? w.column = some v →
      b.named? w.column = some v' → v ≤ v' := by
    refine (hrows.rises.filter p).imp ?_
    rintro a b ⟨v, v', hv, hv', hlt⟩ u u' hu hu'
    rw [hv] at hu
    rw [hv'] at hu'
    cases hu
    cases hu'
    exact hlt.le
  -- both are ascending, and rows that may stand in either order have the same key
  refine hperm.eq_of_pairwise ?_ (h.pairwise_allRows hkey hbase horder) hrises
  intro a b ha hb hab hba
  have htable : ∀ c ∈ rows.filter p, c ∈ (w.table db).rows := fun c hc =>
    hrows.perm.subset (List.mem_of_mem_filter hc)
  have ha' := htable a (hperm.subset ha)
  have hb' := htable b hb
  obtain ⟨v, hv, -⟩ := h.exists_value ha'
  obtain ⟨v', hv', -⟩ := h.exists_value hb'
  have heq : v = v' := le_antisymm (hab v v' hv hv') (hba v' v hv' hv)
  refine List.inj_on_of_nodup_map h.key.distinct ha' hb' ?_
  rw [hv, hv', heq]

/-- The selection of a request has the rows of the table after its key. -/
theorem Keyed.rows_queryAfter (h : w.Keyed db) {key : Operand}
    (hkey : Query.columnOperand w.query.base w.column = .ok key)
    (hlast : ∀ v ∈ last, w.IsKeyValue db v) :
    ((w.queryAfter key last).orderBy key .asc).selection.rows db =
      (w.table db).rows.filter (w.isAfter last) := by
  obtain ⟨hjoins, -, -, -⟩ := w.query_plain
  -- without joins a row is selected by its own columns
  have hselection : ((w.queryAfter key last).orderBy key .asc).selection =
      ⟨w.query.entity.table, w.query.base.source, [],
        Query.merged (if (w.pageAfter last).lastSeenKey.isBlank then []
          else [⟨none, .compare key .gt (w.pageAfter last).lastSeenKey⟩])⟩ := by
    rw [queryAfter_eq, ← hjoins]
    rfl
  rw [hselection, Selection.rows_of_joins_eq_nil db rfl]
  refine List.filter_congr ?_
  intro r hr
  simp only
  rw [Query.restriction_merged]
  cases last with
  | none => rfl
  | some v =>
    show decide (Truth.conj (List.map _ (if (w.term v).isBlank then _ else _)) = Truth.yes) =
      ((w.term v).isBlank || _)
    cases hblank : (w.term v).isBlank with
    | true => rfl
    | false =>
      obtain ⟨v', hv', -⟩ := h.exists_value hr
      -- the database compares by the order of the values
      have habove := h.above key hkey v (hlast v rfl) [(w.query.base.source, r)] v'
        (by rw [Tuple.row_cons]; exact hv')
      rw [hv', Bool.false_or, Option.any_some, decide_eq_decide, ← habove]
      show Truth.conj [db.judge _ _] = .yes ↔ _
      rw [Truth.conj_cons, Truth.conj_nil, Truth.and_yes]
      exact Iff.rfl

/-- The table has an ascending order. -/
theorem Keyed.exists_ascending (h : w.Keyed db) : ∃ rows, w.Ascending db rows := by
  obtain ⟨key, hkey⟩ := w.exists_operand
  let r := (w.queryAfter key none).orderBy key .asc
  have hperm : (r.allRows db).Perm (w.table db).rows := by
    refine (r.allRows_perm db).trans ?_
    rw [h.rows_queryAfter hkey (by simp)]
    rw [filter_isAfter_none]
  refine ⟨r.allRows db, hperm, ?_⟩
  have hle := h.pairwise_allRows hkey (base_queryAfter key none) (order_queryAfter key none)
  have hdistinct : ((r.allRows db).map fun a => a.named? w.column).Nodup :=
    (hperm.map _).nodup_iff.mpr h.key.distinct
  -- no key is there twice, so the keys do not only ascend but rise
  refine (hle.and (List.pairwise_map.mp hdistinct)).imp_of_mem ?_
  rintro a b ha hb ⟨hab, hne⟩
  obtain ⟨v, hv, -⟩ := h.exists_value (hperm.subset ha)
  obtain ⟨v', hv', -⟩ := h.exists_value (hperm.subset hb)
  refine ⟨v, v', hv, hv', lt_of_le_of_ne (hab v v' hv hv') ?_⟩
  rintro rfl
  exact hne (hv.trans hv'.symm)

/-- A request gives the first of the rows after its key, as many as fit on a page. -/
theorem shows_iff (h : w.Keyed db) (hrows : w.Ascending db rows)
    (hlast : ∀ v ∈ last, w.IsKeyValue db v) {page : List (Record V)} :
    w.Shows db last page ↔ page = (rows.filter (w.isAfter last)).take w.size := by
  obtain ⟨key, hkey⟩ := w.exists_operand
  obtain ⟨-, -, -, hoffset⟩ := w.query_plain
  have hall := hrows.eq_allRows h hkey (base_queryAfter key last) (order_queryAfter key last)
    (h.rows_queryAfter hkey hlast)
  have hwindow : ((w.queryAfter key last).orderBy key .asc).rows db =
      (((w.queryAfter key last).orderBy key .asc).allRows db).take w.size := by
    rw [queryAfter_eq]
    show (List.drop (Option.getD (w.query.offset.map _) 0) _).take _ = _
    rw [hoffset]
    rfl
  rw [shows_iff_queryAfter (h.readable hlast) hkey, hwindow, hall]

/-- Databases of ordered values compare and order the keys of a table as values. -/
theorem keyed_ordered (w : KeyWalk V) (value : Term → Option V) (tables : String → Table V)
    (hkey : (w.table (.ordered value tables)).IsKey w.column)
    (hkind : (∀ v, w.IsKeyValue (.ordered value tables) v → ∃ n, w.term v = .int n) ∨
      ∀ v, w.IsKeyValue (.ordered value tables) v → ∃ s, w.term v = .text s)
    (hvalue : ∀ v, w.IsKeyValue (.ordered value tables) v → value (w.term v) = some v) :
    w.Keyed (.ordered value tables) := by
  -- the key operand of the base is the column of the row that the base contributes
  have hoperand {key : Operand} (h : Query.columnOperand w.query.base w.column = .ok key)
      (t : Tuple V) : key.value? t = (t.row w.query.base.source).named? w.column := by
    unfold Query.columnOperand at h
    split at h
    · rename_i ident hident
      cases h
      exact (Record.named?_of_parse hident _).symm
    · cases h
  refine ⟨hkey, hkind, ?_, ?_⟩
  · intro key h v hv t v' hv'
    show Database.judged value t (.compare key .gt (w.term v)) = .yes ↔ v < v'
    rw [Database.judged, hoperand h, hv', hvalue v hv]
    show Truth.ofBool (v < v') = .yes ↔ v < v'
    rw [Truth.ofBool]
    simp
  · intro key h ts
    refine (Database.pairwise_sorted ⟨key, .asc⟩ ts).imp ?_
    intro t t' hle v v' hv hv'
    rw [Database.inOrder, hoperand h, hoperand h, hv, hv'] at hle
    exact of_decide_eq_true hle

/-! ### Walks -/

/-- The last row of the page has a blank key. -/
def EndsBlank (w : KeyWalk V) (page : List (Record V)) : Prop :=
  ∃ r v, page.getLast? = some r ∧ r.named? w.column = some v ∧ (w.term v).isBlank = true

/-- After the key of a row come the rows behind it, unless the key is blank. -/
theorem Ascending.filter_isAfter (hrows : w.Ascending db rows) {before rest : List (Record V)}
    {r : Record V} {v : V} (hsplit : rows = before ++ r :: rest) (hv : r.named? w.column = some v)
    (hblank : (w.term v).isBlank = false) : rows.filter (w.isAfter (some v)) = rest := by
  have hafter (a : Record V) (u : V) (hu : a.named? w.column = some u) :
      w.isAfter (some v) a = decide (v < u) := by
    rw [isAfter, Option.all_some, hblank, Bool.false_or, hu, Option.any_some]
  have hrises := hrows.rises
  rw [hsplit, List.pairwise_append, List.pairwise_cons] at hrises
  obtain ⟨-, ⟨hrest, -⟩, hbefore⟩ := hrises
  -- the rows before are below the row, those after it above, and it is not above itself
  have hdropped : before.filter (w.isAfter (some v)) = [] := by
    refine List.filter_eq_nil_iff.mpr fun a ha => ?_
    obtain ⟨u, v', hu, hv', hlt⟩ := hbefore a ha r List.mem_cons_self
    rw [hv] at hv'
    cases hv'
    rw [hafter a u hu, decide_eq_true_iff]
    exact hlt.not_gt
  have hkept : rest.filter (w.isAfter (some v)) = rest := by
    refine List.filter_eq_self.mpr fun b hb => ?_
    obtain ⟨v', u, hv', hu, hlt⟩ := hrest b hb
    rw [hv] at hv'
    cases hv'
    rw [hafter b u hu, decide_eq_true_iff]
    exact hlt
  have hself : ¬ w.isAfter (some v) r = true := by
    rw [hafter r v hv, decide_eq_true_iff]
    exact lt_irrefl v
  rw [hsplit, List.filter_append, hdropped, List.filter_cons_of_neg hself, hkept, List.nil_append]

/-- The rows after a page are those behind it, unless the page ends in a blank key. -/
theorem Ascending.filter_isAfter_page (hrows : w.Ascending db rows) {rest : List (Record V)}
    (hsuffix : rest <:+ rows) {r : Record V} {v : V} (hlast : (rest.take w.size).getLast? = some r)
    (hv : r.named? w.column = some v) (hblank : (w.term v).isBlank = false) :
    rows.filter (w.isAfter (some v)) = rest.drop w.size := by
  obtain ⟨before, hbefore⟩ := hsuffix
  obtain ⟨init, hinit⟩ := List.getLast?_eq_some_iff.mp hlast
  have hrest : rest = init ++ r :: rest.drop w.size :=
    calc
      rest = rest.take w.size ++ rest.drop w.size := (List.take_append_drop w.size rest).symm
      _ = init ++ r :: rest.drop w.size := by rw [hinit, List.append_assoc, List.singleton_append]
  have hsplit : rows = (before ++ init) ++ r :: rest.drop w.size := by
    rw [← hbefore, List.append_assoc, ← hrest]
  exact hrows.filter_isAfter hsplit hv hblank

/-- The last value of a page is one of the key column. -/
theorem Ascending.isKeyValue (hrows : w.Ascending db rows) {rest : List (Record V)}
    (hsuffix : rest <:+ rows) {r : Record V} {v : V} (hlast : (rest.take w.size).getLast? = some r)
    (hv : r.named? w.column = some v) : ∀ u ∈ some v, w.IsKeyValue db u := by
  rintro u ⟨⟩
  have hmem : r ∈ rest := List.mem_of_mem_take (List.mem_of_getLast? hlast)
  exact ⟨r, hrows.perm.subset (hsuffix.subset hmem), hv⟩

/-- If no page ends in a blank key, the walk goes through the slices of the rows. -/
theorem Ascending.walk_slices (hrows : w.Ascending db rows) (h : w.Keyed db)
    {rest : List (Record V)} (hlast : ∀ v ∈ last, w.IsKeyValue db v)
    (hrest : rows.filter (w.isAfter last) = rest) (hsuffix : rest <:+ rows)
    (hblank : ∀ page ∈ slices w.size rest, ¬ w.EndsBlank page) :
    w.Walk db last (slices w.size rest) := by
  -- a page takes rows from the front, so what it leaves is shorter and again a tail of the rows
  induction hlength : rest.length using Nat.strong_induction_on generalizing rest last with
  | _ n ih =>
    have hshows (page : List (Record V)) : w.Shows db last page ↔ page = rest.take w.size := by
      rw [shows_iff h hrows hlast, hrest]
    by_cases hnil : rest = []
    · rw [hnil, slices_nil]
      rw [hnil, List.take_nil] at hshows
      exact .done ((hshows []).mpr rfl)
    · have hsize := w.one_le_size
      rw [slices_of_ne_nil hsize hnil] at hblank ⊢
      obtain ⟨hpage, hmore⟩ := List.forall_mem_cons.mp hblank
      have hne : rest.take w.size ≠ [] := by
        rw [ne_eq, List.take_eq_nil_iff, not_or]
        exact ⟨by omega, hnil⟩
      have hr := List.getLast?_eq_some_getLast hne
      obtain ⟨v, hv, -⟩ := h.exists_value (hrows.perm.subset
        (hsuffix.subset (List.mem_of_mem_take (List.getLast_mem hne))))
      have hv' : (w.term v).isBlank = false := by
        rw [Bool.eq_false_iff]
        exact fun hb => hpage ⟨_, v, hr, hv, hb⟩
      have hlength' : (rest.drop w.size).length < n := by
        have hpos := List.length_pos_iff.mpr hnil
        rw [List.length_drop]
        omega
      exact .next ((hshows _).mpr rfl) hr hv (ih _ hlength' (hrows.isKeyValue hsuffix hr hv)
        (hrows.filter_isAfter_page hsuffix hr hv hv') ((List.drop_suffix _ _).trans hsuffix) hmore
        rfl)

/-- A walk after a blank key is a walk from the start. -/
theorem Ascending.restart (hrows : w.Ascending db rows) (h : w.Keyed db) {v : V}
    {pages : List (List (Record V))} (hv : w.IsKeyValue db v) (hblank : (w.term v).isBlank = true)
    (hwalk : w.Walk db (some v) pages) : w.Walk db none pages := by
  have hshows (page : List (Record V)) (hpage : w.Shows db (some v) page) :
      w.Shows db none page := by
    rw [shows_iff h hrows (by simpa using hv)] at hpage
    rw [shows_iff h hrows (by simp), hpage]
    -- a blank key is below no value, so nothing is left out after it
    have hsame : w.isAfter (some v) = w.isAfter none := by
      funext r
      rw [isAfter, Option.all_some, hblank]
      rfl
    rw [hsame]
  cases hwalk with
  | done hpage => exact .done (hshows _ hpage)
  | next hpage hlast hkey hrest => exact .next (hshows _ hpage) hlast hkey hrest

/-- A walk that ends has gone through the slices of the rows, or a page has ended in a blank key and
the walk has started again and then ended. -/
theorem Ascending.slices_or_restart (hrows : w.Ascending db rows) (h : w.Keyed db)
    {pages : List (List (Record V))} (hwalk : w.Walk db last pages) {rest : List (Record V)}
    (hlast : ∀ v ∈ last, w.IsKeyValue db v) (hrest : rows.filter (w.isAfter last) = rest)
    (hsuffix : rest <:+ rows) :
    (pages = slices w.size rest ∧ ∀ page ∈ slices w.size rest, ¬ w.EndsBlank page) ∨
      (∃ page ∈ slices w.size rest, w.EndsBlank page) ∧
        ∃ again, w.Walk db none again ∧ again.length < pages.length := by
  have hsize := w.one_le_size
  induction hwalk generalizing rest with
  | done hpage =>
    rw [shows_iff h hrows hlast, hrest, eq_comm, List.take_eq_nil_iff] at hpage
    have hnil : rest = [] := hpage.resolve_left (by omega)
    rw [hnil, slices_nil]
    exact .inl ⟨rfl, fun page hpage => absurd hpage List.not_mem_nil⟩
  | next hpage hr hv hwalk ih =>
    rw [shows_iff h hrows hlast, hrest] at hpage
    subst hpage
    have hnil : rest ≠ [] := by
      rintro rfl
      simp at hr
    have hkeyed := hrows.isKeyValue hsuffix hr hv
    rw [slices_of_ne_nil hsize hnil]
    -- after a blank key the rest of the walk is a whole one, shorter than the one it ends
    cases hblank : (w.term _).isBlank with
    | true =>
      refine .inr ⟨⟨_, List.mem_cons_self, _, _, hr, hv, hblank⟩, _, ?_, Nat.lt_succ_self _⟩
      exact hrows.restart h (hkeyed _ rfl) hblank hwalk
    | false =>
      have hmore := ih hkeyed (hrows.filter_isAfter_page hsuffix hr hv hblank)
        ((List.drop_suffix _ _).trans hsuffix)
      rcases hmore with ⟨hpages, hnone⟩ | ⟨⟨page, hmem, hends⟩, again, hagain, hlt⟩
      · refine .inl ⟨congrArg _ hpages, List.forall_mem_cons.mpr ⟨?_, hnone⟩⟩
        rintro ⟨r', v', hr', hv', hblank'⟩
        rw [hr] at hr'
        cases hr'
        rw [hv] at hv'
        cases hv'
        rw [hblank] at hblank'
        cases hblank'
      · refine .inr ⟨⟨page, List.mem_cons_of_mem _ hmem, hends⟩, again, hagain, ?_⟩
        exact Nat.lt_succ_of_lt hlt

/-- A walk that ends has gone through the slices of the rows. -/
theorem Ascending.eq_slices (hrows : w.Ascending db rows) (h : w.Keyed db)
    {pages : List (List (Record V))} (hwalk : w.Walk db none pages) :
    pages = slices w.size rows ∧ ∀ page ∈ slices w.size rows, ¬ w.EndsBlank page := by
  have hcases {pages : List (List (Record V))} (hwalk : w.Walk db none pages) :=
    hrows.slices_or_restart h hwalk (by simp) (w.filter_isAfter_none rows) (List.suffix_refl rows)
  -- each walk that starts again is shorter, so the last one has met no blank key
  have hnone : ∀ page ∈ slices w.size rows, ¬ w.EndsBlank page := by
    induction hlength : pages.length using Nat.strong_induction_on generalizing pages with
    | _ n ih =>
      rcases hcases hwalk with ⟨-, hnone⟩ | ⟨-, again, hagain, hlt⟩
      · exact hnone
      · exact ih _ (hlength ▸ hlt) hagain rfl
  rcases hcases hwalk with ⟨hpages, -⟩ | ⟨⟨page, hmem, hends⟩, -⟩
  · exact ⟨hpages, hnone⟩
  · exact absurd hends (hnone page hmem)

/-- **Walks visit every row.** A walk by key (`KeyWalk.Walk`) over a table with such a key
(`KeyWalk.Keyed`) visits every row once.  Let the rows of the table be in ascending order of the
key.  The walk ends exactly if no page of so many of them ends in a blank key (`KeyWalk.EndsBlank`);
and if it ends, it has shown these pages, the `slices` of the rows, which together are the table. -/
theorem walk_visits_all (w : KeyWalk V) {db : Database V} (h : w.Keyed db) :
    ∃ rows, rows.Perm (w.table db).rows ∧ rows.Pairwise w.Rises ∧
      ((∃ pages, w.Walk db none pages) ↔ ∀ page ∈ slices w.size rows, ¬ w.EndsBlank page) ∧
      ∀ pages, w.Walk db none pages → pages = slices w.size rows ∧ pages.flatten = rows := by
  obtain ⟨rows, hrows⟩ := h.exists_ascending
  refine ⟨rows, hrows.perm, hrows.rises, ⟨?_, ?_⟩, ?_⟩
  · rintro ⟨pages, hwalk⟩
    exact (hrows.eq_slices h hwalk).2
  · intro hblank
    exact ⟨_, hrows.walk_slices h (by simp) (w.filter_isAfter_none rows) (List.suffix_refl rows)
      hblank⟩
  · intro pages hwalk
    obtain ⟨rfl, -⟩ := hrows.eq_slices h hwalk
    exact ⟨rfl, flatten_slices w.size rows⟩

/-- Parts by their numbers, which are texts. -/
def parts (numbers : List String) : Database String :=
  .ordered Term.text? fun _ =>
    ⟨["number"], numbers.map fun n => [("number", some n)],
      List.forall_mem_map.mpr fun _ _ => rfl⟩

/-- A walk through the parts by number, with so many on a page. -/
def byNumber (perPage : Int64) : KeyWalk String where
  registry := Registry.empty.insert ((Entity.empty "part" "parts").withUniqueKey "number") rfl
  name := "part"
  query := _
  query_eq := rfl
  column := "number"
  isUniqueKey := rfl
  fields := [("key_field", .str "number"), ("per_page", .int perPage)]
  column_eq := rfl
  fresh := rfl
  perPage := some perPage
  perPage_eq := rfl
  page := none
  page_eq := rfl
  context := ⟨none, 10⟩
  term := .text

/-- Numbers that are told apart are a key of the parts. -/
theorem keyed_parts (perPage : Int64) {numbers : List String} (h : numbers.Nodup) :
    (byNumber perPage).Keyed (parts numbers) := by
  have hnumber (n : String) : Record.named? [("number", some n)] "number" = some n := rfl
  have hkey : ((byNumber perPage).table (parts numbers)).IsKey "number" := by
    refine ⟨List.forall_mem_map.mpr fun n _ => ?_, ?_⟩
    · rw [hnumber]
      rfl
    · show ((numbers.map fun n => [("number", some n)]).map _).Nodup
      rw [List.map_map]
      exact h.map (Option.some_injective String)
  exact keyed_ordered _ _ _ hkey (.inr fun v _ => ⟨v, rfl⟩) fun _ _ => rfl

/-- Three parts on pages of two are listed in the order of their numbers. -/
theorem walk_visits_all_parts :
    ∃ pages, (byNumber 2).Walk (parts ["c", "a", "b"]) none pages ∧
      pages.flatten.Perm [[("number", some "c")], [("number", some "a")], [("number", some "b")]] ∧
      pages.flatten.Pairwise (byNumber 2).Rises := by
  obtain ⟨rows, hperm, hrises, hends, hpages⟩ :=
    walk_visits_all (byNumber 2) (keyed_parts 2 (by decide : ["c", "a", "b"].Nodup))
  -- no number of a part is the empty text
  have hblank : ∀ page ∈ slices (byNumber 2).size rows, ¬ (byNumber 2).EndsBlank page := by
    rintro page hpage ⟨r, v, hr, hv, hblank⟩
    have hmem : r ∈ rows := by
      rw [← flatten_slices (byNumber 2).size rows]
      exact List.mem_flatten.mpr ⟨page, hpage, List.mem_of_getLast? hr⟩
    have htable : r ∈ ["c", "a", "b"].map fun n => [("number", some n)] := hperm.subset hmem
    obtain ⟨n, hn, rfl⟩ := List.mem_map.mp htable
    have hvalue : n = v := Option.some.inj hv
    have hempty : v = "" := String.isEmpty_iff.mp hblank
    rw [hvalue, hempty] at hn
    exact absurd hn (by decide)
  obtain ⟨pages, hwalk⟩ := hends.mpr hblank
  obtain ⟨-, hflatten⟩ := hpages pages hwalk
  rw [← hflatten] at hperm hrises
  exact ⟨pages, hwalk, hperm, hrises⟩

/-- **An empty key starts over.** With an empty text among the numbers, and one part on a page,
there is no `KeyWalk.Walk` to the end: the empty text stands for no key, so the first page comes
again and again. -/
theorem walk_stuck_at_empty :
    (byNumber 1).Keyed (parts ["", "a"]) ∧
      ¬ ∃ pages, (byNumber 1).Walk (parts ["", "a"]) none pages := by
  have hkeyed := keyed_parts 1 (by decide : ["", "a"].Nodup)
  have hrows : (byNumber 1).Ascending (parts ["", "a"])
      [[("number", some "")], [("number", some "a")]] :=
    ⟨List.Perm.refl _, List.pairwise_pair.mpr ⟨"", "a", rfl, rfl, by decide⟩⟩
  refine ⟨hkeyed, ?_⟩
  rintro ⟨pages, hwalk⟩
  have hnone := (hrows.eq_slices hkeyed hwalk).2
  rw [slices_of_ne_nil (byNumber 1).one_le_size (List.cons_ne_nil _ _)] at hnone
  exact hnone _ List.mem_cons_self ⟨_, "", rfl, rfl, rfl⟩

end KeyWalk

end Listing
