import Listing.Proofs.Failure
import Listing.Proofs.Query.Route

namespace Listing

/-!
# What an ordering appends

An ordering goes through its keys in order.  A key without a direction leaves the query as it is.
One with a direction follows its path from the base, after all joins that are there by then, and
adds one item to the ordering: the operand of its field where the path ends.  So where the joins of
a key stand, and with them its item, can be told from the lengths of the paths before it.

* `PlacedKey`, `SortKeys.placed` — the keys that have a direction, each with the number of joins
  that are made before it;
* `PlacedKey.route`, `PlacedKey.arrival`, `PlacedKey.item` — the joins of a key, the row source that
  its path ends at, and its item;
* `Query.appended` — a query with the joins, the items and the faults of some keys after its own;
* `Query.sort_of_direction` — one key appends itself;
* `Query.sortAll_eq` — the keys of an ordering append themselves in order;
* `SortKeys.joins_at_place` — the joins of each key stand where the key is placed;
* `Builtin.sort_appends` — what both ordering hooks do.
-/

/-! ### Keys and their places -/

/-- A key with its direction, and the number of joins that are made before it. -/
structure PlacedKey where
  before : Nat
  key : SortKey
  direction : Direction

/-- The keys of an ordering that have a direction, if `n` joins have been made before them. -/
def SortKeys.placed : Nat → List SortKey → List PlacedKey
  | _, [] => []
  | n, key :: rest =>
    match key.direction with
    | none => placed n rest
    | some direction => ⟨n, key, direction⟩ :: placed (n + key.path.length) rest

namespace SortKeys

variable {key : SortKey}

/-- A key without a direction takes no place, however long its path is. -/
theorem placed_of_no_direction (h : key.direction = none) (n : Nat) (rest : List SortKey) :
    placed n (key :: rest) = placed n rest := by
  rw [placed, h]

/-- A key with a direction is placed before the others, which come after its joins. -/
theorem placed_of_direction {direction : Direction} (h : key.direction = some direction) (n : Nat)
    (rest : List SortKey) :
    placed n (key :: rest) = ⟨n, key, direction⟩ :: placed (n + key.path.length) rest := by
  rw [placed, h]

end SortKeys

namespace PlacedKey

variable (q : Query) (x : PlacedKey)

/-- The joins that the key makes in a query: those of its path, from the base. -/
def route : List JoinMade := q.registry.route x.before q.base x.key.path

/-- The row source that the path of the key ends at. -/
def arrival : Binding := q.registry.arrival x.before q.base x.key.path

/-- The first fault among the joins of the key. -/
def fault? : Option JoinFault :=
  (q.registry.along q.base.entity x.key.path).findSome? q.registry.faultOf

/-- The item of an ordering by an operand. -/
def itemOf (operand : Sql.Operand) : OrderItem :=
  ⟨if x.key.ignoreCase then .lower operand else operand, x.direction⟩

/-- The item that the key adds to the ordering: the operand of its field where its path ends. -/
def item : Except Error OrderItem := (q.operand (x.arrival q) x.key.field).map x.itemOf

end PlacedKey

namespace Query

variable {q r : Query}

/-- The query with the joins of some keys after its own joins, some items after its own ordering,
and the first fault among the joins unless it has one. -/
def appended (q : Query) (keys : List PlacedKey) (items : List OrderItem) : Query :=
  { q with
      joins := q.joins ++ keys.flatMap fun x => (x.route q).map q.registry.joinOf
      order := q.order ++ items
      fault := q.fault.or (keys.findSome? fun x => x.fault? q) }

/-- Nothing is appended by no keys. -/
theorem appended_nil (q : Query) : q.appended [] [] = q := by
  simp [appended]

/-- What is appended twice is appended at once. -/
theorem appended_appended (q : Query) (xs ys : List PlacedKey) (is js : List OrderItem) :
    (q.appended xs is).appended ys js = q.appended (xs ++ ys) (is ++ js) := by
  -- what a key adds depends on the registry and the base alone, which have stayed
  simp [appended, PlacedKey.route, PlacedKey.fault?, List.flatMap_append, List.findSome?_append,
    Option.or_assoc]

/-- A key adds one join for each step of its path. -/
theorem length_joins_appended (q : Query) (x : PlacedKey) (items : List OrderItem) :
    (q.appended [x] items).joins.length = q.joins.length + x.key.path.length := by
  simp [appended, PlacedKey.route]

/-- The item of a key is the same after other keys, as these change no registry and no base. -/
theorem item_appended (q : Query) (keys : List PlacedKey) (items : List OrderItem) :
    PlacedKey.item (q.appended keys items) = PlacedKey.item q := rfl

/-- A key without a direction leaves the query as it is. -/
theorem sort_of_no_direction (q : Query) {key : SortKey} (h : key.direction = none) :
    q.sort key = .ok q := by
  rw [sort, h]

/-- A key with a direction appends its joins and its item. -/
theorem sort_of_direction (q : Query) {key : SortKey} {direction : Direction}
    (h : key.direction = some direction) :
    q.sort key = (PlacedKey.item q ⟨q.joins.length, key, direction⟩).map fun item =>
      q.appended [⟨q.joins.length, key, direction⟩] [item] := by
  let x : PlacedKey := ⟨q.joins.length, key, direction⟩
  -- the path adds its route to the query, and the field is looked up where it ends
  have hfollow : q.follow key.path = (q.appended [x] [], x.arrival q) := by
    rw [follow, followFrom_eq]
    simp [appended, x, PlacedKey.route, PlacedKey.fault?, PlacedKey.arrival]
  have hitem : (q.appended [x] []).operand (x.arrival q) key.field =
      q.operand (x.arrival q) x.key.field := rfl
  unfold sort
  rw [h, hfollow]
  simp only
  rw [hitem, PlacedKey.item]
  cases q.operand (x.arrival q) x.key.field with
  | error e => rfl
  | ok operand =>
    show Except.ok ((q.appended [x] []).orderBy _ direction) = .ok (q.appended [x] [_])
    simp [orderBy, appended, PlacedKey.itemOf, x]

/-- The keys of an ordering append their joins and their items in order. -/
theorem sortAll_eq (q : Query) (keys : List SortKey) :
    q.sortAll keys =
      ((SortKeys.placed q.joins.length keys).mapM (PlacedKey.item q)).map
        (q.appended (SortKeys.placed q.joins.length keys)) := by
  unfold sortAll
  induction keys generalizing q with
  | nil =>
    show Except.ok q = .ok (q.appended [] [])
    rw [appended_nil]
  | cons key rest ih =>
    rw [List.foldlM_cons]
    cases hdirection : key.direction with
    | none =>
      rw [sort_of_no_direction q hdirection, SortKeys.placed_of_no_direction hdirection]
      exact ih q
    | some direction =>
      rw [sort_of_direction q hdirection, SortKeys.placed_of_direction hdirection, List.mapM_cons]
      cases PlacedKey.item q ⟨q.joins.length, key, direction⟩ with
      | error e => rfl
      | ok item =>
        -- the others are placed after the joins of this key, and nothing else of it concerns them
        have hrest := ih (q.appended [⟨q.joins.length, key, direction⟩] [item])
        rw [length_joins_appended, item_appended] at hrest
        show List.foldlM sort (q.appended [⟨q.joins.length, key, direction⟩] [item]) rest = _
        rw [hrest]
        cases (SortKeys.placed (q.joins.length + key.path.length) rest).mapM (PlacedKey.item q) with
        | error e => rfl
        | ok items => exact congrArg Except.ok (appended_appended q _ _ _ _)

end Query

/-! ### Places -/

namespace SortKeys

/-- The placed keys are those with a direction, in order. -/
theorem map_placed (n : Nat) (keys : List SortKey) :
    (placed n keys).map (fun x => (x.key, x.direction)) =
      keys.filterMap fun key => key.direction.map fun direction => (key, direction) := by
  induction keys generalizing n with
  | nil => rfl
  | cons key rest ih =>
    cases hdirection : key.direction with
    | none => simp [placed_of_no_direction, hdirection, ih]
    | some direction => simp [placed_of_direction hdirection, hdirection, ih]

/-- Keys without a direction take no place, however long their paths are. -/
theorem placed_filter (n : Nat) (keys : List SortKey) :
    placed n (keys.filter fun key => key.direction.isSome) = placed n keys := by
  induction keys generalizing n with
  | nil => rfl
  | cons key rest ih =>
    cases hdirection : key.direction with
    | none => simp [placed_of_no_direction, hdirection, ih]
    | some direction => simp [placed_of_direction hdirection, hdirection, ih]

/-- Blocks of joins as long as the paths of their keys stand where the keys are placed. -/
theorem joins_at_place (block : PlacedKey → List Join)
    (hlength : ∀ x, (block x).length = x.key.path.length) (joins : List Join) (keys : List SortKey)
    {x : PlacedKey} (hx : x ∈ placed joins.length keys) :
    joins.length ≤ x.before ∧
      ((joins ++ (placed joins.length keys).flatMap block).drop x.before).take x.key.path.length =
        block x := by
  induction keys generalizing joins with
  | nil => cases hx
  | cons key rest ih =>
    cases hdirection : key.direction with
    | none =>
      rw [placed_of_no_direction hdirection] at hx ⊢
      exact ih joins hx
    | some direction =>
      rw [placed_of_direction hdirection] at hx ⊢
      set first : PlacedKey := ⟨joins.length, key, direction⟩
      -- the later keys are placed after the joins of the first one
      have hnext : joins.length + key.path.length = (joins ++ block first).length := by
        rw [List.length_append, hlength]
      rw [hnext] at hx ⊢
      rw [List.flatMap_cons, ← List.append_assoc]
      rcases List.mem_cons.mp hx with rfl | hlater
      · refine ⟨Nat.le_refl _, ?_⟩
        rw [List.append_assoc, List.drop_left, ← hlength first, List.take_left]
      · obtain ⟨hplace, hblock⟩ := ih (joins ++ block first) hlater
        rw [List.length_append] at hplace
        exact ⟨by omega, hblock⟩

end SortKeys

namespace Builtin

variable {hook : Builtin} {q : Query} {document : Json} {keys : List SortKey}

/-- Both ordering hooks sort by the keys of the document. -/
theorem run_sort (hhook : hook = sort ∨ hook = lenientSort)
    (hkeys : SortKeys.decode document = .ok keys) (q : Query) :
    hook.run q document = q.sortAll keys := by
  rcases hhook with rfl | rfl
  · show (decoded (SortKeys.decode document) >>= q.sortAll) = _
    rw [hkeys]
    rfl
  · show (decoded (SortKeys.decode document) >>= q.sortAll) = _
    rw [hkeys]
    rfl

/-- **Orderings append their keys.** `Builtin.apply` of the ordering hooks, for every list of keys.
The keys that have a direction are placed (`SortKeys.placed`): each gets the number of joins before
it, those of the query and those of the paths of earlier such keys.  If the ordering succeeds, each
of them has added its item: its direction, and the operand of its field where its path from the base
ends (`PlacedKey.arrival`), without regard to case if it says so; and the joins of its path
(`PlacedKey.route`), which stand where the key is placed.  A fault is noted for these joins alone,
and all else of the query has stayed, as if the keys without a direction were not there.  The
ordering fails only for a field that is not resolved, and always then.  The lenient hook does the
same as the strict one, and `Builtin.run` of either on a document of the keys is this ordering. -/
theorem sort_appends (q : Query) (keys : List SortKey) :
    let placed := SortKeys.placed q.joins.length keys
    placed.map (fun x => (x.key, x.direction)) =
        keys.filterMap (fun key => key.direction.map fun direction => (key, direction)) ∧
    (∀ r, sort.apply q keys = .ok r →
      ∃ items,
        List.Forall₂ (fun x item => ∃ operand,
          q.operand (x.arrival q) x.key.field = .ok operand ∧
          item = ⟨if x.key.ignoreCase then .lower operand else operand, x.direction⟩)
          placed items ∧
        r = { q with
                order := q.order ++ items
                joins := q.joins ++ placed.flatMap fun x => (x.route q).map q.registry.joinOf
                fault := q.fault.or (placed.findSome? fun x => x.fault? q) } ∧
        ∀ x ∈ placed, q.joins.length ≤ x.before ∧
          (r.joins.drop x.before).take x.key.path.length = (x.route q).map q.registry.joinOf) ∧
    (∀ e, sort.apply q keys = .error e →
      ∃ x ∈ placed, q.operand (x.arrival q) x.key.field = .error e) ∧
    ((∀ x ∈ placed, ∃ operand, q.operand (x.arrival q) x.key.field = .ok operand) →
      ∃ r, sort.apply q keys = .ok r) ∧
    sort.apply q keys = sort.apply q (keys.filter fun key => key.direction.isSome) ∧
    lenientSort.apply q keys = sort.apply q keys ∧
    ∀ hook, hook = sort ∨ hook = lenientSort → ∀ document, SortKeys.decode document = .ok keys →
      hook.run q document = sort.apply q keys := by
  intro placed
  -- all that the hook does is to place the keys and to append their items
  have happly : sort.apply q keys = (placed.mapM (PlacedKey.item q)).map (q.appended placed) :=
    Query.sortAll_eq q keys
  refine ⟨SortKeys.map_placed _ _, ?_, ?_, ?_, ?_, rfl, ?_⟩
  · intro r hr
    obtain ⟨items, hitems, rfl⟩ := Except.map_ok (happly.symm.trans hr)
    refine ⟨items, ?_, rfl, fun x hx => ?_⟩
    · refine (Except.mapM_eq_ok_iff.mp hitems).imp ?_
      intro x item hitem
      obtain ⟨operand, hoperand, rfl⟩ := Except.map_ok hitem
      exact ⟨operand, hoperand, rfl⟩
    · exact SortKeys.joins_at_place (fun x => (x.route q).map q.registry.joinOf)
        (fun x => by simp [PlacedKey.route]) q.joins keys hx
  -- placing never fails, so the first item that fails decides
  · have hfails : FailsWith (fun e => ∃ x ∈ placed, q.operand (x.arrival q) x.key.field = .error e)
        (placed.mapM (PlacedKey.item q)) :=
      .mapM fun x hx => .map fun e he => ⟨x, hx, he⟩
    intro e he
    exact hfails e (Except.map_eq_error_iff.mp (happly.symm.trans he))
  · intro hall
    obtain ⟨items, hitems, -⟩ := Except.exists_mapM_ok (f := PlacedKey.item q)
      (P := fun _ _ => True) id placed fun x hx => by
        obtain ⟨operand, hoperand⟩ := hall x hx
        exact ⟨x.itemOf operand, by rw [PlacedKey.item, hoperand]; rfl, trivial⟩
    exact ⟨_, by rw [happly, hitems]; rfl⟩
  · show q.sortAll keys = q.sortAll (keys.filter fun key => key.direction.isSome)
    rw [Query.sortAll_eq, Query.sortAll_eq, SortKeys.placed_filter]
  · intro hook hhook document hkeys
    exact run_sort hhook hkeys q

/-- All products, with their parts to join. -/
def assembledProducts : Query :=
  ⟨Query.assembly, ⟨⟨'p', 0⟩, "product"⟩,
    (Entity.empty "product" "products").hasMany "parts" "part" "product_id", [], [], [], none, none,
    none⟩

/-- Products by the weight of their parts, by name, and by the number of the product of a part.  The
key along a path of unknown relations has no direction. -/
def assemblyKeys : List SortKey :=
  [⟨.column "no such column", [⟨.inner, "ghosts"⟩, ⟨.inner, "owners"⟩], none, false⟩,
    ⟨.column "weight", [⟨.left, "parts"⟩], some .desc, true⟩,
    ⟨.column "name", [], some .asc, false⟩,
    ⟨.column "id", [⟨.inner, "parts"⟩, ⟨.inner, "product"⟩], some .asc, false⟩]

/-- The last key starts at the base again, and ends at the third join. -/
theorem sort_appends_assembly :
    ∃ r, lenientSort.run assembledProducts (SortKeys.encode assemblyKeys) = .ok r ∧
      r.order = [⟨.lower (.column ⟨'p', 1⟩ (.bare "weight")), .desc⟩,
        ⟨.column ⟨'p', 0⟩ (.bare "name"), .asc⟩, ⟨.column ⟨'p', 3⟩ (.bare "id"), .asc⟩] ∧
      r.joins.map Join.source = [⟨'p', 1⟩, ⟨'p', 2⟩, ⟨'p', 3⟩] ∧ r.fault = none := by
  have hkeys : SortKeys.decode (SortKeys.encode assemblyKeys) = .ok assemblyKeys :=
    SortKeys.decode_encode (by decide)
  obtain ⟨-, hresult, -, hsucceeds, -, -, hrun⟩ := sort_appends assembledProducts assemblyKeys
  have hresolved : ∀ x ∈ SortKeys.placed 0 assemblyKeys, ∃ operand,
      assembledProducts.operand (x.arrival assembledProducts) x.key.field = .ok operand := by
    simp only [assemblyKeys, SortKeys.placed, List.forall_mem_cons]
    exact ⟨⟨_, rfl⟩, ⟨_, rfl⟩, ⟨_, rfl⟩, by simp⟩
  obtain ⟨r, hr⟩ := hsucceeds hresolved
  obtain ⟨items, hitems, rfl, -⟩ := hresult r hr
  refine ⟨_, (hrun lenientSort (.inr rfl) _ hkeys).trans hr, ?_, rfl, rfl⟩
  obtain _ | ⟨⟨_, ⟨⟩, rfl⟩, _ | ⟨⟨_, ⟨⟩, rfl⟩, _ | ⟨⟨_, ⟨⟩, rfl⟩, _ | _⟩⟩⟩ := hitems
  rfl

end Builtin

end Listing
