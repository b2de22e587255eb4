import Listing.Proofs.Page.Tiling
import Listing.Proofs.Pipeline.Progress
import Listing.Proofs.Pipeline.Narrowing
import Listing.Proofs.Query.Count
import Listing.Proofs.Stage.Normal

namespace Listing

/-!
# What the pages of a request cover

The totals of a page are counted on the query that the stages before it made, and count each base
row once.  The pages show the rows of the query, in which joins may repeat a base row; so they show
all rows if none is repeated, and end too early otherwise.

* `Database.repository`, `Repository.Counts` — the repository of a database, and the repositories
  whose counts are right on it;
* `Query.rows_page_nth`, `Query.flatMap_pages` — the rows of a page, and of all pages;
* `Pipeline.pages_cover` — the totals and the pages of a run in which pages are counted last.
-/

variable {V : Type} [DecidableEq V]

/-! ### Repositories of databases -/

/-- The repository that runs the statements of queries on a database. -/
def Database.repository {m : Type → Type} [Monad m] (db : Database V) (term : V → Term) :
    Repository m where
  count q := do
    liftOutcome q.validate
    let number := q.counting.number db q.selection
    if number < 2 ^ 63 then return Int64.ofNat number
    else throw (.query "count is out of range")
  all q := do
    liftOutcome q.validate
    return (q.rows db).map fun r => r.map fun cell => Term.ofOption term cell.2

/-- Whenever the repository counts a query, it gives the number that the counting statement gives on
the database. -/
def Repository.Counts (repository : Repository Id) (db : Database V) : Prop :=
  ∀ q n, repository.count q = pure n → n.toInt = q.counting.number db q.selection

/-- The repository of a database counts its rows. -/
theorem Database.counts_repository (db : Database V) (term : V → Term) :
    (db.repository term).Counts db := by
  intro q n h
  obtain ⟨_, -, h⟩ := bind_eq_pure.mp h
  simp only at h
  split at h
  · rename_i hrange
    rw [← pure_inj h, Int64.toInt_ofNat_of_lt hrange]
  · cases h

/-! ### The rows of pages -/

namespace Query

variable {p : OffsetPage}

/-- The rows of a page are a page of the rows, after those of all pages before it. -/
theorem rows_page_nth (db : Database V) (q : Query) (h : p.Counted) {i : Nat}
    (hi : i < p.maxPage.toInt.toNat) :
    (q.page (p.nth i)).rows db =
      ((q.allRows db).drop (i * p.perPage.toInt.toNat)).take p.perPage.toInt.toNat := by
  obtain ⟨offset, hoffset, hpage⟩ := q.page_nth h (i := i) (by omega)
  have hsize := h.size
  have hstart : offset.toInt.toNat = i * p.perPage.toInt.toNat := by
    rw [hoffset, Int.toNat_mul (by omega) (by omega), Int.toNat_natCast]
  rw [hpage]
  show ((q.allRows db).drop offset.toInt.toNat).take _ = _
  rw [hstart]

/-- The pages together are the rows from the start on, as many as there is room for. -/
theorem flatMap_pages (db : Database V) (q : Query) (h : p.Counted) :
    ((List.range p.maxPage.toInt.toNat).flatMap fun i => (q.page (p.nth i)).rows db) =
      (q.allRows db).take (p.maxPage.toInt.toNat * p.perPage.toInt.toNat) := by
  rw [← flatMap_windows]
  exact List.flatMap_congr fun i hi => q.rows_page_nth db h (List.mem_range.mp hi)

/-- If the total is the number of rows, the pages together are all rows. -/
theorem flatMap_pages_of_total (db : Database V) (q : Query) (h : p.Counted)
    (htotal : p.totalCount.toInt = (q.allRows db).length) :
    ((List.range p.maxPage.toInt.toNat).flatMap fun i => (q.page (p.nth i)).rows db) =
      q.allRows db := by
  have hroom : (q.allRows db).length ≤ p.maxPage.toInt.toNat * p.perPage.toInt.toNat := by
    have hsize : 0 ≤ p.perPage.toInt := le_trans (by decide) h.size
    have hpages := h.maxPage_nonneg
    have hle := h.total_le
    rw [htotal, ← Int.toNat_of_nonneg hpages, ← Int.toNat_of_nonneg hsize,
      ← Int.natCast_mul] at hle
    exact Int.ofNat_le.mp hle
  rw [flatMap_pages db q h, List.take_of_length_le hroom]

end Query

/-- A list has as many distinct items as items exactly if none is repeated. -/
theorem length_dedup_eq_iff {α : Type} [DecidableEq α] (l : List α) :
    l.dedup.length = l.length ↔ l.Nodup := by
  rw [← List.dedup_eq_self]
  exact ⟨(List.dedup_sublist l).eq_of_length, congrArg List.length⟩

/-! ### Runs that count last -/

namespace Pipeline

variable {custom : String → Handler Id} {config : Config} {options : Options Id} {q r : Query}
  {params normal : Params} {ts : List Task} {documents : List Json}

/-- Tasks with hooks of this library keep the entity. -/
theorem Threads.entity_eq {context : Context Id} (hts : ∀ task ∈ ts, IsBuiltin task.hook)
    (h : Threads custom context q ts documents r) : r.entity = q.entity := by
  induction h with
  | nil => rfl
  | cons _ hrun _ ih =>
    obtain ⟨⟨b, hb⟩, hrest⟩ := List.forall_mem_cons.mp hts
    rw [hb] at hrun
    exact (ih hrest).trans (Builtin.entity_run hrun)

/-- A stage with parameters that comes last is the last task. -/
theorem tasks_last {entity : Entity} {before : List String} {stage : String} {hook : Hook}
    (hpresent : (params.get? stage).isSome = true)
    (hhook : resolve stage options entity config = .ok hook)
    (h : tasks config options entity params (before ++ [stage]) = .ok ts) :
    ∃ earlier request, tasks config options entity params before = .ok earlier ∧
      ts = earlier ++ [⟨stage, hook, request⟩] := by
  obtain ⟨earlier, last, hearlier, hlast, rfl⟩ := tasks_append h
  obtain ⟨request, hrequest⟩ := Option.isSome_iff_exists.mp hpresent
  rw [tasks, hrequest, hhook] at hlast
  cases hlast
  exact ⟨earlier, request, hearlier, rfl⟩

/-- A threaded run in which pages are counted last counts the query that the other stages leave, and
what it gives is the window of the page on that query. -/
theorem run_counted_last {before : List String} (hmode : config.mode = .threaded)
    (hstages : stagesOf config options = before ++ ["paginate"])
    (hpage : resolve "paginate" options q.entity config = .ok (.builtin .offsetPage))
    (hhooks : AllBuiltin config options q.entity)
    (hpresent : (params.get? "paginate").isSome = true)
    (h : run custom config options q params = pure (r, normal)) :
    ∃ s p repository total, s.entity = q.entity ∧ options.repository = some repository ∧
      repository.count s = pure total ∧ r = s.page (OffsetPage.withTotal p total) ∧
      normal.page? = some (p.withTotal total) := by
  obtain ⟨ts, hts, hrun⟩ := run_eq_pure.mp h
  have hbuiltin := isBuiltin_of_tasks hhooks hts
  rw [hstages] at hts
  obtain ⟨earlier, request, -, rfl⟩ := tasks_last hpresent hpage hts
  rw [hmode] at hrun
  obtain ⟨documents, hthreads, hnormal⟩ := runThreaded_eq_pure.mp hrun
  -- `s` is the query that the earlier tasks leave; the page is counted and run on it
  obtain ⟨s, made, last, hmade, hlast, rfl⟩ := hthreads.append
  cases hlast with
  | cons hformat hwindow hnone =>
    cases hnone
    obtain ⟨asked, repository, total, -, hrepository, htotal, rfl⟩ :=
      Builtin.offsetPage_format_iff.mp hformat
    refine ⟨s, asked, repository, total, ?_, hrepository, htotal, ?_, ?_⟩
    · exact hmade.entity_eq fun task htask => hbuiltin task (List.mem_append_left _ htask)
    · exact (Except.ok.inj hwindow).symm
    · have hlength : (earlier.map Task.stage).length = made.length := by
        rw [List.length_map, hmade.length_eq]
      have hset : normal = (params.setAll (byStage earlier made)).set "paginate"
          (asked.withTotal total).encode := by
        refine hnormal.trans ?_
        rw [byStage, List.map_append, List.zip_append hlength, Params.setAll, List.foldl_append]
        rfl
      rw [hset, Params.page?, Params.get?_set_self rfl]
      rfl

/-- **Pages cover distinct rows.** For a call of `Pipeline.run` that ends with its page, with a
repository that counts the rows of a database (`Repository.Counts`).  The totals of the page are
those of the distinct base rows of its query (`Query.allRows`), and the pages together show the rows
of the query from the start on, as many as the totals leave room for.  So they show all rows exactly
when the total is the number of rows, which it is if no base row is repeated among them; with
repeated rows the total is less, and the last rows may be on no page. -/
theorem pages_cover {db : Database V} {repository : Repository Id} {before : List String}
    (hcounts : repository.Counts db) (hrepository : options.repository = some repository)
    (hkey : ∀ key, q.entity.primaryKey = some key → (db.table q.entity.table).IsKey key)
    (hmode : config.mode = .threaded) (hstages : stagesOf config options = before ++ ["paginate"])
    (hpage : resolve "paginate" options q.entity config = .ok (.builtin .offsetPage))
    (hhooks : AllBuiltin config options q.entity)
    (hpresent : (params.get? "paginate").isSome = true)
    (h : run custom config options q params = pure (r, normal)) :
    ∃ p, normal.page? = some p ∧ p.totalCount.toInt = (r.allRows db).dedup.length ∧
      (p.totalCount.toInt = (r.allRows db).length ↔ (r.allRows db).Nodup) ∧
      ((List.range p.maxPage.toInt.toNat).flatMap fun i => (r.page (p.nth i)).rows db) =
        (r.allRows db).take (p.maxPage.toInt.toNat * p.perPage.toInt.toNat) ∧
      ((r.allRows db).Nodup →
        ((List.range p.maxPage.toInt.toNat).flatMap fun i => (r.page (p.nth i)).rows db) =
          r.allRows db) := by
  obtain ⟨s, asked, repository', total, hentity, hrepository', htotal, rfl, hnormal⟩ :=
    run_counted_last hmode hstages hpage hhooks hpresent h
  rw [hrepository] at hrepository'
  cases hrepository'
  have hnumber : total.toInt = (s.allRows db).dedup.length := by
    rw [hcounts s total htotal, Query.length_dedup_allRows]
    refine congrArg _ (Query.number_counting ?_)
    rw [hentity]
    exact hkey
  -- the window is not a part of the selection, so both queries have the same rows without it
  have hrows : (s.page (asked.withTotal total)).allRows db = s.allRows db := rfl
  have hcount : (asked.withTotal total).totalCount.toInt = (s.allRows db).dedup.length := by
    have hzero : (0 : Int64).toInt = 0 := rfl
    show (max total 0).toInt = _
    rw [toInt_max]
    omega
  have hexact : (asked.withTotal total).totalCount.toInt = (s.allRows db).length ↔
      (s.allRows db).Nodup := by
    rw [hcount, ← length_dedup_eq_iff]
    exact Int.ofNat_inj
  have hcounted := asked.counted_withTotal total
  refine ⟨asked.withTotal total, hnormal, hcount, hexact, ?_, fun hnodup => ?_⟩
  · exact Query.flatMap_pages db _ hcounted
  · exact Query.flatMap_pages_of_total db _ hcounted (hexact.mpr hnodup)

/-- Products, each with its reviews. -/
def shopRegistry : Registry :=
  (Registry.empty.insert (.empty "review" "reviews") rfl).insert
    (((Entity.empty "product" "products").withPrimaryKey "id").hasMany "reviews" "review"
      "product_id") rfl

/-- All products of the shop. -/
def shopProducts : Query :=
  ⟨shopRegistry, ⟨⟨'p', 0⟩, "product"⟩,
    ((Entity.empty "product" "products").withPrimaryKey "id").hasMany "reviews" "review"
      "product_id", [], [], [], none, none, none⟩

/-- One product a page, by identifier, of the products with a review by the given standard. -/
def productsReviewed (operator : String) (rating : Int64) : Params :=
  ⟨[("search", .obj [("rating", .obj [("assoc", .arr [.str "reviews"]),
      ("search_type", .str operator), ("search_term", .int rating)])]),
    ("sort", .obj [("field", .str "id"), ("order", .str "asc")]),
    ("paginate", .obj [("per_page", .int 1)])]⟩

/-- A call that counts in the database of the shop. -/
def inShop : Options Id := Options.none.withRepository (shop.repository fun n => .int (.ofInt n))

/-- The number of a product is a key of the table. -/
theorem shop_isKey : ∀ key, shopProducts.entity.primaryKey = some key →
    (shop.table shopProducts.entity.table).IsKey key := by
  rintro key ⟨⟩
  exact ⟨by decide +kernel, by decide +kernel⟩

/-- The shop registers no hook of its own. -/
theorem allBuiltin_inShop :
    AllBuiltin (Config.standard.withMode .threaded) inShop shopProducts.entity :=
  allBuiltin_of_hooks nofun nofun nofun

/-- With one bad review for each of the two products, both are shown. -/
theorem pages_cover_badReviews :
    ∃ r normal p,
      run Handler.unfinished (Config.standard.withMode .threaded) inShop shopProducts
        (productsReviewed "lteq" 4) = pure (r, normal) ∧
      normal.page? = some p ∧ p.totalCount.toInt = 2 ∧
      ((List.range p.maxPage.toInt.toNat).flatMap fun i => (r.page (p.nth i)).rows shop) =
        [[("id", some 1)], [("id", some 2)]] := by
  obtain ⟨r, normal, hrun, hrows⟩ : ∃ r normal,
      run Handler.unfinished (Config.standard.withMode .threaded) inShop shopProducts
        (productsReviewed "lteq" 4) = pure (r, normal) ∧
      r.allRows shop = [[("id", some 1)], [("id", some 2)]] :=
    ⟨_, _, rfl, by decide +kernel⟩
  have hstages : stagesOf (Config.standard.withMode .threaded) inShop =
      ["search", "sort"] ++ ["paginate"] := rfl
  obtain ⟨p, hp, htotal, -, -, hall⟩ := pages_cover
    (shop.counts_repository fun n => .int (.ofInt n)) rfl shop_isKey rfl hstages rfl
    allBuiltin_inShop rfl hrun
  -- no base row is there twice
  rw [hrows] at htotal hall
  exact ⟨r, normal, p, hrun, hp, htotal, hall (by decide)⟩

/-- **Repeated rows hide others.** With two reviews of the first product and one of the second, the
first product is shown on both pages and the second one on none. -/
theorem pages_miss_second :
    Query.ofEntity shopRegistry "product" = .ok shopProducts ∧
    (∀ key, shopProducts.entity.primaryKey = some key →
      (shop.table shopProducts.entity.table).IsKey key) ∧
    (shop.repository fun n => .int (.ofInt n)).Counts shop ∧
    ∃ r normal p,
      run Handler.unfinished (Config.standard.withMode .threaded) inShop shopProducts
        (productsReviewed "gteq" 1) = pure (r, normal) ∧
      normal.page? = some p ∧ p.totalCount = 2 ∧
      r.allRows shop = [[("id", some 1)], [("id", some 1)], [("id", some 2)]] ∧
      ((List.range p.maxPage.toInt.toNat).flatMap fun i => (r.page (p.nth i)).rows shop) =
        [[("id", some 1)], [("id", some 1)]] :=
  ⟨rfl, shop_isKey, shop.counts_repository _, _, _, _, rfl, rfl, rfl, by decide +kernel,
    by decide +kernel⟩

end Pipeline

end Listing
