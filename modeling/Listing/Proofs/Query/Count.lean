import Listing.Proofs.Query.Database

namespace Listing

/-!
# What the count of a query counts

However the joins of a query multiply the rows of its base, its count takes each of them once.

* `Table.IsKey.length_dedup` — of rows of a table there are as many as of their keys;
* `Query.nodup_allRows` — joins along keys of the joined tables repeat no row;
* `Query.number_counting` — either way of counting gives the number of distinct base rows;
* `Query.count_distinct_rows` — the counting statement does so for the rows of the selecting one.
-/

variable {V : Type} [DecidableEq V]

/-- A partial function that is defined on a list, and takes distinct items to distinct values, keeps
the number of distinct items. -/
theorem length_dedup_filterMap {α β : Type} [DecidableEq α] [DecidableEq β] {f : α → Option β}
    {l : List α} (hdefined : ∀ a ∈ l, (f a).isSome = true)
    (hinjective : ∀ a ∈ l, ∀ b ∈ l, f a = f b → a = b) :
    (l.filterMap f).dedup.length = l.dedup.length := by
  induction l with
  | nil => rfl
  | cons a rest ih =>
    have ih := ih (fun b hb => hdefined b (List.mem_cons_of_mem a hb)) fun b hb c hc =>
      hinjective b (List.mem_cons_of_mem a hb) c (List.mem_cons_of_mem a hc)
    obtain ⟨x, hx⟩ := Option.isSome_iff_exists.mp (hdefined a List.mem_cons_self)
    rw [List.filterMap_cons_some hx]
    -- an item that occurs again has an image that does, and the other way round
    by_cases hmem : a ∈ rest
    · have hmem' : x ∈ rest.filterMap f := List.mem_filterMap.mpr ⟨a, hmem, hx⟩
      rw [List.dedup_cons_of_mem hmem, List.dedup_cons_of_mem hmem', ih]
    · have hmem' : x ∉ rest.filterMap f := by
        intro hx'
        obtain ⟨b, hb, hbx⟩ := List.mem_filterMap.mp hx'
        have hab : a = b :=
          hinjective a List.mem_cons_self b (List.mem_cons_of_mem a hb) (hx.trans hbx.symm)
        exact hmem (hab ▸ hb)
      rw [List.dedup_cons_of_notMem hmem, List.dedup_cons_of_notMem hmem', List.length_cons,
        List.length_cons, ih]

/-- Of rows of a table there are as many distinct ones as there are distinct keys of them. -/
theorem Table.IsKey.length_dedup {table : Table V} {column : String} (h : table.IsKey column)
    {rows : List (Record V)} (hrows : ∀ r ∈ rows, r ∈ table.rows) :
    (rows.filterMap fun r => r.named? column).dedup.length = rows.dedup.length := by
  refine length_dedup_filterMap (fun r hr => h.present r (hrows r hr)) ?_
  intro r hr r' hr' hkey
  exact List.inj_on_of_nodup_map h.distinct (hrows r hr) (hrows r' hr') hkey

/-! ### Joins that repeat nothing -/

/-- Where the condition of a join holds, the two columns have one value. -/
theorem JoinOn.named?_eq_of_holds {on : JoinOn} {t : Tuple V} {partner : Record V}
    (h : on.holds t partner = true) :
    partner.named? on.relatedKey = (t.row on.owner).named? on.ownerKey := by
  unfold holds at h
  split at h
  · rename_i x y hx hy
    rw [hx, hy, of_decide_eq_true h]
  · cases h

namespace Join

variable {db : Database V} {j : Join}

/-- A join along a key of the joined table finds one partner at most. -/
theorem length_partners_le {on : JoinOn} (hon : j.on = some on)
    (hkey : (db.table j.table).IsKey on.relatedKey) (t : Tuple V) :
    (j.partners db t).length ≤ 1 := by
  let found := (db.table j.table).rows.filter fun r => on.holds t r
  have hfound : found.length ≤ 1 := by
    -- all partners have one key, and no key is there twice
    have hsame : ∀ key ∈ found.map fun r => r.named? on.relatedKey,
        key = (t.row on.owner).named? on.ownerKey := by
      refine List.forall_mem_map.mpr ?_
      intro r hr
      exact JoinOn.named?_eq_of_holds (List.mem_filter.mp hr).2
    have hdistinct : (found.map fun r => r.named? on.relatedKey).Nodup :=
      hkey.distinct.sublist (List.filter_sublist.map _)
    rw [List.eq_replicate_of_mem hsame, List.nodup_replicate, List.length_map] at hdistinct
    exact hdistinct
  unfold partners
  rw [hon]
  simp only
  split
  · exact Nat.le_refl 1
  · exact hfound

/-- A join that finds one partner at most keeps the first rows of tuples or drops them. -/
theorem extend_sublist {source : Sql.Alias} {rows : List (Record V)} {ts : List (Tuple V)}
    (hts : ∀ t ∈ ts, t.Begins source rows) (hsingle : ∀ t, (j.partners db t).length ≤ 1) :
    ((ts.flatMap (j.extend db)).map fun t => t.row source).Sublist
      (ts.map fun t => t.row source) := by
  induction ts with
  | nil => exact List.Sublist.refl []
  | cons t rest ih =>
    obtain ⟨ht, hrest⟩ := List.forall_mem_cons.mp hts
    -- a tuple is kept once, or dropped if it has no partner
    have hfirst : ((j.extend db t).map fun t => t.row source).Sublist [t.row source] := by
      have hlength := hsingle t
      unfold extend
      cases hpartners : j.partners db t with
      | nil => exact List.nil_sublist _
      | cons r more =>
        rw [hpartners, List.length_cons] at hlength
        have hmore : more = [] := List.length_eq_zero_iff.mp (by omega)
        rw [hmore, List.map_singleton, List.map_singleton, ht.row_append]
    rw [List.flatMap_cons, List.map_append, List.map_cons]
    exact hfirst.append (ih hrest)

end Join

namespace Selection

variable {db : Database V} {s : Selection}

/-- If each join finds one partner at most, the base rows of the tuples are some of the rows of the
base table, in order. -/
theorem tuples_sublist (hsingle : ∀ j ∈ s.joins, ∀ t, (j.partners db t).length ≤ 1) :
    ((s.tuples db).map fun t => t.row s.source).Sublist (db.table s.table).rows := by
  have hjoins (joins : List Join) (ts : List (Tuple V)) (hjoins : ∀ j ∈ joins, j ∈ s.joins)
      (hts : ∀ t ∈ ts, t.Begins s.source (db.table s.table).rows) :
      ((joins.foldl (fun ts j => ts.flatMap (j.extend db)) ts).map fun t => t.row s.source).Sublist
        (ts.map fun t => t.row s.source) := by
    induction joins generalizing ts with
    | nil => exact List.Sublist.refl _
    | cons j rest ih =>
      obtain ⟨hj, hrest⟩ := List.forall_mem_cons.mp hjoins
      exact (ih _ hrest (Join.begins_extend hts)).trans (Join.extend_sublist hts (hsingle j hj))
  have htuples := hjoins s.joins ((db.table s.table).rows.map fun r => [(s.source, r)])
    (fun _ h => h) (List.forall_mem_map.mpr fun r hr => ⟨r, hr, [], rfl⟩)
  rwa [Tuple.map_row_single] at htuples

/-- Joins along keys repeat no row of the base. -/
theorem nodup_rows (hbase : (db.table s.table).rows.Nodup)
    (hjoins : ∀ j ∈ s.joins, ∃ on, j.on = some on ∧ (db.table j.table).IsKey on.relatedKey) :
    (s.rows db).Nodup := by
  refine hbase.sublist ((List.filter_sublist.map _).trans (tuples_sublist ?_))
  intro j hj t
  obtain ⟨on, hon, hkey⟩ := hjoins j hj
  exact j.length_partners_le hon hkey t

end Selection

namespace Query

/-- In a query with a key of its base and joins along keys of the joined tables, no row is given
twice. -/
theorem nodup_allRows {db : Database V} {q : Query} {key : String}
    (hkey : (db.table q.entity.table).IsKey key)
    (hjoins : ∀ j ∈ q.joins, ∃ on, j.on = some on ∧ (db.table j.table).IsKey on.relatedKey) :
    (q.allRows db).Nodup :=
  (q.allRows_perm db).nodup_iff.mpr (q.selection.nodup_rows hkey.nodup hjoins)

/-! ### The number of rows -/

/-- Either way of counting gives the number of distinct base rows of the selection. -/
theorem number_counting {db : Database V} {q : Query}
    (hkey : ∀ key, q.entity.primaryKey = some key → (db.table q.entity.table).IsKey key) :
    q.counting.number db q.selection = (q.selection.rows db).dedup.length := by
  rw [counting]
  cases hprimary : q.entity.primaryKey with
  | none => rfl
  | some key =>
    exact (hkey key hprimary).length_dedup fun r hr => q.selection.mem_table_of_mem_rows hr

/-- The order of the rows does not matter for the number of distinct ones. -/
theorem length_dedup_allRows (db : Database V) (q : Query) :
    (q.allRows db).dedup.length = (q.selection.rows db).dedup.length :=
  (q.allRows_perm db).dedup.length_eq

/-- **Counts are of distinct rows.** The statement of `Query.buildCount` is the text of a selection,
and what this selects from a database (`Query.counting`) is the number of distinct base rows among
the rows of the query without its ordering and its window (`Query.plain`).  This holds with a
primary key, which then has to be a key of the base table (`Table.IsKey`), and without one; whatever
the joins, the conditions and the tables are. -/
theorem count_distinct_rows (db : Database V) (q : Query)
    (hkey : ∀ key, q.entity.primaryKey = some key → (db.table q.entity.table).IsKey key) :
    q.buildCount.1 = Sql.text (q.counting.tokens q.selection) ∧
    q.plain.build.1 = Sql.text ([.keyword .select, .source q.base.source, .dot, .star] ++
      q.selection.tokens) ∧
    q.counting.number db q.selection = (q.plain.rows db).dedup.length := by
  refine ⟨?_, ?_, ?_⟩
  · rw [buildCount_eq, countSql, countTokens_eq]
  · rw [build_eq, selectSql, selectTokens_plain]
  · rw [number_counting hkey, rows_plain, length_dedup_allRows]
    rfl

end Query

/-- Three products, of which the first has two reviews and the last has none. -/
def shop : Database Int :=
  .ordered (fun term => term.int?.map Int64.toInt) fun
    | "products" => ⟨["id"], [[("id", some 1)], [("id", some 2)], [("id", some 3)]], by decide⟩
    | "reviews" => ⟨["product_id", "rating"],
        [[("product_id", some 1), ("rating", some 5)], [("product_id", some 1), ("rating", some 4)],
          [("product_id", some 2), ("rating", some 1)], [("product_id", none), ("rating", some 5)]],
        by decide⟩
    | _ => ⟨[], [], by decide⟩

namespace Query

/-- The products without a review or with a good one. -/
def wellReviewed : Query :=
  ⟨.empty, ⟨⟨'p', 0⟩, "product"⟩, (Entity.empty "product" "products").withPrimaryKey "id",
    [⟨.left, "reviews", ⟨'r', 1⟩, some ⟨"product_id", ⟨'p', 0⟩, "id"⟩⟩],
    [⟨none, .any [.nullness (.column ⟨'r', 1⟩ (.bare "rating")) true,
      .compare (.column ⟨'r', 1⟩ (.bare "rating")) .gt (.int 3)]⟩], [], none, none, none⟩

/-- The first product has two good reviews and is counted once, and the product without a review is
counted as well. -/
theorem count_distinct_rows_shop :
    wellReviewed.buildCount.1 = "SELECT COUNT(DISTINCT p0.id) FROM products AS p0 " ++
      "LEFT JOIN reviews AS r1 ON r1.product_id = p0.id " ++
      "WHERE r1.rating IS NULL OR r1.rating > $1" ∧
    wellReviewed.plain.rows shop = [[("id", some 1)], [("id", some 1)], [("id", some 3)]] ∧
    wellReviewed.counting.number shop wellReviewed.selection = 2 := by
  have hkey : ∀ key, wellReviewed.entity.primaryKey = some key →
      (shop.table wellReviewed.entity.table).IsKey key := by
    rintro key ⟨⟩
    exact ⟨by decide +kernel, by decide +kernel⟩
  obtain ⟨htext, -, hnumber⟩ := count_distinct_rows shop wellReviewed hkey
  have hrows : wellReviewed.plain.rows shop =
      [[("id", some 1)], [("id", some 1)], [("id", some 3)]] := by decide +kernel
  refine ⟨htext.trans (by decide +kernel), hrows, ?_⟩
  rw [hnumber, hrows]
  decide

end Query

end Listing
