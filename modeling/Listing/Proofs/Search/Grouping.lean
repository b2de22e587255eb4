import Listing.Proofs.Query.Tags
import Listing.Proofs.Search.FieldTags

namespace Listing

/-!
# Searches of one field

An alternative goes into the last condition that has its tag.  Where names are legible, tags tell
what was searched, so this is the last condition on the same path and field, and alternatives on
other paths or fields are kept apart.  Where they are not, two paths may share a tag.

* `Filed` — a condition together with what was searched by it;
* `Filed.attach` — attaching a condition to the last one on the same path and field;
* `Filed.Grouped` — what the criteria of a search come to when they are attached so;
* `Query.FiledAs` — the conjuncts of a query, and what was searched by each;
* `Query.searches_group_by_field` — with legible names searches attach by path and field;
* `Query.alternative_misplaced` — an alternative that goes into a condition on another path.
-/

open Sql (Condition)

/-! ### Conditions by field -/

/-- A condition, and what was searched by it if a search gave it. -/
structure Filed where
  searched : Option SearchedField
  condition : Condition

namespace Filed

/-- The condition as a query has it, with nothing but the tag. -/
def conjunct (x : Filed) : Conjunct := ⟨x.searched.map SearchedField.tag, x.condition⟩

/-- Lets a condition hold instead of the last one on the same path and field, if there is one. -/
def orLast (s : SearchedField) (c : Condition) : List Filed → Option (List Filed)
  | [] => none
  | x :: rest =>
    match orLast s c rest with
    | some changed => some (x :: changed)
    | none =>
      if x.searched = some s then some (⟨x.searched, x.condition.orElse c⟩ :: rest) else none

/-- Attaches a condition on a path and a field: as a condition, as one that must not hold, or as an
alternative to the last one on the same path and field. -/
def attach (s : SearchedField) (combine : Combine) (c : Condition) (xs : List Filed) : List Filed :=
  match combine with
  | .and => xs ++ [⟨some s, c⟩]
  | .andNot => xs ++ [⟨some s, .not c⟩]
  | .or => (orLast s c xs).getD (xs ++ [⟨some s, c⟩])

/-- The criteria lead from the first conditions to the last: each is attached by path and field,
unless its term is blank. -/
inductive Grouped : Criteria → List Filed → List Filed → Prop
  | nil (xs : List Filed) : Grouped [] xs xs
  | blank {name : String} {c : Criterion} {rest : Criteria} {xs zs : List Filed}
    (hblank : c.term.isBlank = true) (hrest : Grouped rest xs zs) :
    Grouped ((name, c) :: rest) xs zs
  | attach {name : String} {c : Criterion} {rest : Criteria} {xs zs : List Filed} {x : Sql.Operand}
    {condition : Condition} (hblank : c.term.isBlank = false)
    (hcondition : c.operator.condition x c.term = .ok condition)
    (hrest : Grouped rest (Filed.attach c.searched c.combine condition xs) zs) :
    Grouped ((name, c) :: rest) xs zs

variable {s : SearchedField} {c : Condition} {xs : List Filed}

/-- Among conditions whose tags tell what was searched, the last one of a tag is the last one on the
path and field. -/
theorem orLast_conjunct
    (h : ∀ x ∈ xs, ∀ t, x.searched = some t → t.tag = s.tag → t = s) :
    Query.orLast s.tag c (xs.map conjunct) = (orLast s c xs).map (List.map conjunct) := by
  induction xs with
  | nil => rfl
  | cons x rest ih =>
    obtain ⟨hfirst, hrest⟩ := List.forall_mem_cons.mp h
    -- a condition has the tag of a field only if it is of the field
    have htag : (conjunct x).tag = some s.tag ↔ x.searched = some s := by
      constructor
      · intro heq
        obtain ⟨t, ht, htag⟩ := Option.map_eq_some_iff.mp heq
        rw [ht, hfirst t ht htag]
      · intro heq
        rw [conjunct, heq]
        rfl
    rw [List.map_cons, Query.orLast, orLast, ih hrest]
    cases orLast s c rest with
    | some changed => rfl
    | none =>
      by_cases hx : x.searched = some s
      · simp only [Option.map_none, if_pos (htag.mpr hx), if_pos hx]
        rfl
      · simp only [Option.map_none, if_neg fun heq => hx (htag.mp heq), if_neg hx]

/-- Conditions are filed as they are attached, if no tag belongs to two fields. -/
theorem on_conjunct (combine : Combine)
    (h : ∀ x ∈ xs, ∀ t, x.searched = some t → t.tag = s.tag → t = s) :
    Attachment.on ⟨s.tag, combine, c⟩ (xs.map conjunct) =
      (attach s combine c xs).map conjunct := by
  cases combine with
  | and => simp [Attachment.on, attach, conjunct]
  | andNot => simp [Attachment.on, attach, conjunct]
  | or =>
    show (Query.orLast s.tag c _).getD _ = List.map conjunct ((orLast s c xs).getD _)
    rw [orLast_conjunct h]
    cases orLast s c xs with
    | some changed => rfl
    | none => simp [conjunct]

/-- An alternative leaves the fields of the conditions as they are. -/
theorem searched_orLast {ys : List Filed} (h : orLast s c xs = some ys) {y : Filed} (hy : y ∈ ys) :
    ∃ x ∈ xs, y.searched = x.searched := by
  induction xs generalizing ys with
  | nil => cases h
  | cons x rest ih =>
    rw [orLast] at h
    split at h
    · rename_i changed hchanged
      cases h
      -- hy@@2
      rcases List.mem_cons.mp hy with rfl | hy
      · exact ⟨y, List.mem_cons_self, rfl⟩
      · obtain ⟨z, hz, heq⟩ := ih hchanged hy
        exact ⟨z, List.mem_cons_of_mem _ hz, heq⟩
    · split at h
      · cases h
        rcases List.mem_cons.mp hy with rfl | hy
        · exact ⟨x, List.mem_cons_self, rfl⟩
        · exact ⟨y, List.mem_cons_of_mem _ hy, rfl⟩
      · cases h

/-- Attaching a condition files nothing under what is not searched by it or by one before. -/
theorem searched_attach (combine : Combine) {y : Filed} (hy : y ∈ attach s combine c xs) :
    y.searched = some s ∨ ∃ x ∈ xs, y.searched = x.searched := by
  have hadded {added : Filed} (hadded : added.searched = some s) (hy : y ∈ xs ++ [added]) :
      y.searched = some s ∨ ∃ x ∈ xs, y.searched = x.searched := by
    rcases List.mem_append.mp hy with hy | hy
    · exact .inr ⟨y, hy, rfl⟩
    · exact .inl (List.mem_singleton.mp hy ▸ hadded)
  cases combine with
  | and | andNot => exact hadded rfl hy
  | or =>
    unfold attach at hy
    simp only at hy
    -- without a condition of the field, the alternative is a condition like others
    cases hlast : orLast s c xs with
    | some changed =>
      rw [hlast] at hy
      exact .inr (searched_orLast hlast hy)
    | none =>
      rw [hlast] at hy
      exact hadded rfl hy

end Filed

/-! ### Queries -/

namespace Query

variable {q r : Query} {xs : List Filed} {c : Criterion}

/-- The conjuncts of the query are the conditions, and each that a search gave is filed under a
field that can be searched. -/
structure FiledAs (q : Query) (xs : List Filed) : Prop where
  conjuncts : q.conjuncts = xs.map Filed.conjunct
  leads : ∀ x ∈ xs, ∀ s, x.searched = some s → q.registry.Leads q.base.entity s.path s.field

/-- With legible names, an accepted criterion is attached by path and field. -/
theorem FiledAs.search (h : q.FiledAs xs) (hr : q.registry.Legible)
    (hblank : c.term.isBlank = false) (hsearch : q.search c = .ok r)
    (hvalid : r.validate = .ok ()) :
    ∃ x condition, c.operator.condition x c.term = .ok condition ∧
      r.FiledAs (Filed.attach c.searched c.combine condition xs) := by
  have hleads := leads_of_search hblank hsearch hvalid
  have hgrows := grows_search hsearch
  rcases search_ok hsearch with ⟨hblank', -⟩ | ⟨-, -, x, condition, -, hcondition, heq⟩
  · rw [hblank] at hblank'
    cases hblank'
  refine ⟨x, condition, hcondition, ?_, ?_⟩
  · have hconjuncts : r.conjuncts = Attachment.on ⟨c.tag, c.combine, condition⟩ q.conjuncts :=
      heq ▸ q.conjuncts_follow_attach c.path ⟨c.tag, c.combine, condition⟩
    rw [hconjuncts, h.conjuncts, Criterion.tag_eq]
    -- what is filed could be searched here, as this could, so one tag means one field
    refine Filed.on_conjunct c.combine ?_
    intro y hy t ht htag
    exact SearchedField.tag_inj hr (h.leads y hy t ht) hleads htag
  · intro y hy s hs
    rw [hgrows.registry_eq, hgrows.base_eq]
    rcases Filed.searched_attach c.combine hy with hnew | ⟨y', hy', hold⟩
    · cases hnew.symm.trans hs
      exact hleads
    · exact h.leads y' hy' s (hold ▸ hs)

/-- A query from which a search leads to a valid one is valid. -/
theorem validate_of_searchAll {criteria : Criteria} (h : q.searchAll criteria = .ok r)
    (hvalid : r.validate = .ok ()) : q.validate = .ok () := by
  have hgrows := grows_foldlM (fun registry entity entry => registry.along entity entry.2.followed)
    (fun q entry r hsearch => grows_search hsearch) h
  have hfault := hgrows.fault_eq.symm.trans (validate_eq_ok_iff.mp hvalid)
  exact validate_eq_ok_iff.mpr (Option.or_eq_none_iff.mp hfault).1

/-- All criteria of a search are filed, each under the field that it searches. -/
theorem FiledAs.searchAll {criteria : Criteria} (h : q.FiledAs xs) (hr : q.registry.Legible)
    (hsearch : q.searchAll criteria = .ok r) (hvalid : r.validate = .ok ()) :
    ∃ zs, Filed.Grouped criteria xs zs ∧ r.FiledAs zs := by
  induction criteria generalizing q xs with
  | nil =>
    cases hsearch
    exact ⟨xs, .nil xs, h⟩
  | cons entry rest ih =>
    obtain ⟨name, c⟩ := entry
    obtain ⟨s, hs, hrest⟩ := Except.bind_ok ((List.foldlM_cons ..).symm.trans hsearch)
    cases hblank : c.term.isBlank with
    | true =>
      obtain rfl : s = q := by
        rcases search_ok hs with ⟨-, rfl⟩ | ⟨hblank', -⟩
        · rfl
        · rw [hblank] at hblank'
          cases hblank'
      obtain ⟨zs, hgrouped, hfiled⟩ := ih h hr hrest
      exact ⟨zs, .blank hblank hgrouped, hfiled⟩
    | false =>
      -- no later criterion takes a fault back, so the query is valid after this one
      obtain ⟨x, condition, hcondition, hnext⟩ :=
        h.search hr hblank hs (validate_of_searchAll hrest hvalid)
      have hregistry := (grows_search hs).registry_eq
      obtain ⟨zs, hgrouped, hfiled⟩ := ih hnext (hregistry ▸ hr) hrest
      exact ⟨zs, .attach hblank hcondition hgrouped, hfiled⟩

/-- **Searches group by field.** With names that are `Registry.Legible` two criteria on an entity
that are accepted, with no join failing, have one `Criterion.tag` exactly if they have one path and
one field.  So `Query.searchAll` attaches each of its conditions by path and field
(`Filed.Grouped`): an alternative goes into the last condition on its own path and field, or into
none. -/
theorem searches_group_by_field (q : Query) (hr : q.registry.Legible) :
    (∀ (q' : Query) (c d : Criterion) (r s : Query), q'.registry = q.registry →
      q'.base = q.base → c.term.isBlank = false → d.term.isBlank = false →
      q.search c = .ok r → r.validate = .ok () → q'.search d = .ok s → s.validate = .ok () →
      (c.tag = d.tag ↔ c.path = d.path ∧ c.field = d.field)) ∧
    ∀ (xs : List Filed) (criteria : Criteria) (r : Query), q.FiledAs xs →
      q.searchAll criteria = .ok r → r.validate = .ok () →
      ∃ zs, Filed.Grouped criteria xs zs ∧ r.FiledAs zs := by
  refine ⟨?_, fun xs criteria r h hsearch hvalid => h.searchAll hr hsearch hvalid⟩
  intro q' c d r s hregistry hbase hc hd hsearch hvalid hsearch' hvalid'
  have hleads := leads_of_search hc hsearch hvalid
  have hleads' := leads_of_search hd hsearch' hvalid'
  -- both searches start from one base in one registry
  rw [hregistry, hbase] at hleads'
  constructor
  · intro htag
    exact SearchedField.mk.inj (SearchedField.tag_inj hr hleads hleads' htag)
  · rintro ⟨hpath, hfield⟩
    rw [Criterion.tag_eq, Criterion.tag_eq, Criterion.searched, hpath, hfield]
    rfl

/-- Products have a category, and a category may have one above it. -/
def shelves : Registry :=
  (Registry.empty.insert ((Entity.empty "category" "categories").belongsTo "parent" "category"
      "parent_id") rfl).insert
    ((Entity.empty "product" "products").belongsTo "category" "category" "category_id") rfl

/-- A criterion on the name at the end of a path of inner joins. -/
def named (path : List String) (combine : Combine) (text : String) : Criterion :=
  ⟨.column "name", path.map (JoinStep.mk .inner), .eq, .text text, combine⟩

/-- An alternative passes over the condition on another path, and goes into the one on its own. -/
theorem searches_group_by_field_shelves :
    ∃ (q r : Query) (zs : List Filed), ofEntity shelves "product" = .ok q ∧
      q.searchAll [("a", named ["category"] .and "a"), ("b", named [] .and "b"),
        ("c", named ["category"] .or "c")] = .ok r ∧
      zs.map Filed.searched = [some ⟨[⟨.inner, "category"⟩], .column "name"⟩,
        some ⟨[], .column "name"⟩] ∧ r.FiledAs zs ∧
      r.selectSql = "SELECT p0.* FROM products AS p0 " ++
        "INNER JOIN categories AS c1 ON c1.id = p0.category_id " ++
        "INNER JOIN categories AS c2 ON c2.id = p0.category_id " ++
        "WHERE (c1.name = $1 OR c2.name = $2) AND p0.name = $3" := by
  have hlegible : shelves.Legible := by
    intro entry hentry
    rcases List.mem_cons.mp hentry with rfl | hentry
    · exact ⟨by decide, nofun, nofun⟩
    · rw [List.mem_singleton.mp hentry]
      exact ⟨by decide, nofun, nofun⟩
  obtain ⟨q, hq⟩ : ∃ q, ofEntity shelves "product" = .ok q := ⟨_, rfl⟩
  obtain ⟨r, hr⟩ : ∃ r, q.searchAll [("a", named ["category"] .and "a"),
      ("b", named [] .and "b"), ("c", named ["category"] .or "c")] = .ok r := by
    cases hq
    exact ⟨_, rfl⟩
  have hregistry : q.registry.Legible := by
    cases hq
    exact hlegible
  have hnone : q.FiledAs [] := by
    cases hq
    exact ⟨rfl, nofun⟩
  have hvalid : r.validate = .ok () := by
    cases hq
    cases hr
    rfl
  obtain ⟨zs, hgrouped, hfiled⟩ :=
    (searches_group_by_field q hregistry).2 [] _ r hnone hr hvalid
  refine ⟨q, r, zs, hq, hr, ?_, hfiled, ?_⟩
  -- one step for each criterion, and none of them is blank
  · rcases hgrouped with _ | ⟨hblank, -⟩ | ⟨-, -, hgrouped⟩
    · cases hblank
    · rcases hgrouped with _ | ⟨hblank, -⟩ | ⟨-, -, hgrouped⟩
      · cases hblank
      · rcases hgrouped with _ | ⟨hblank, -⟩ | ⟨-, -, hgrouped⟩
        · cases hblank
        · cases hgrouped
          rfl
  · cases hq
    cases hr
    decide +kernel

/-- Products have a category, and a shortcut to the one above it, named like the way there. -/
def shortcuts : Registry :=
  (Registry.empty.insert ((Entity.empty "category" "categories").belongsTo "parent" "category"
      "parent_id") rfl).insert
    (((Entity.empty "product" "products").belongsTo "category" "category" "category_id").belongsTo
      "category/inner:parent" "category" "top_id") rfl

/-- **An alternative is misplaced.** Along the shortcut and along the way, two paths with one
`Criterion.tag`, an alternative goes into the condition on the other path. -/
theorem alternative_misplaced :
    ∃ (q r : Query) (c d : Criterion), ofEntity shortcuts "product" = .ok q ∧
      c = named ["category/inner:parent"] .and "a" ∧ d = named ["category", "parent"] .or "b" ∧
      q.searchAll [("top", c), ("parent", d)] = .ok r ∧ r.validate = .ok () ∧
      c.tag = d.tag ∧ c.path ≠ d.path ∧
      r.selectSql = "SELECT p0.* FROM products AS p0 " ++
        "INNER JOIN categories AS c1 ON c1.id = p0.top_id " ++
        "INNER JOIN categories AS c2 ON c2.id = p0.category_id " ++
        "INNER JOIN categories AS c3 ON c3.id = c2.parent_id " ++
        "WHERE c1.name = $1 OR c3.name = $2" :=
  ⟨_, _, _, _, rfl, rfl, rfl, rfl, rfl, by decide +kernel, by decide, by decide +kernel⟩

end Query

end Listing
