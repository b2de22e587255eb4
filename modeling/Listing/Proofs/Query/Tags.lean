import Listing.Proofs.Query.Clause
import Listing.Proofs.Query.Frame
import Mathlib.Data.List.Dedup

namespace Listing

/-!
# Searches of different fields

A condition that is attached for a field goes to the end, or into the last conjunct of the same
field.  So what the searches of one field come to does not depend on those of others in between, and
the clause is the conjunction of what the fields come to.

* `Attachment`, `Query.attachAll` — a condition that is attached for a field, and a list of them;
* `Query.conjunctsOf` — the conjuncts of a field, and those of none;
* `Query.conjunctsOf_attachAll` — they come of what is attached for the field alone;
* `Truth.conj_by_tag` — a conjunction, field by field;
* `Query.attachments_independent` — the clause, field by field and in whatever order.
-/

open Sql (Atom Condition)

/-! ### Conjunctions in parts -/

namespace Truth

/-- Values are demanded in any order. -/
theorem and_left_comm (a b c : Truth) : a.and (b.and c) = b.and (a.and c) := by
  cases a <;> cases b <;> cases c <;> rfl

/-- A conjunction is that of the members with a property and of those without. -/
theorem conj_partition {α : Type} (f : α → Truth) (p : α → Bool) (xs : List α) :
    conj (xs.map f) =
      (conj ((xs.filter p).map f)).and (conj ((xs.filter fun x => !p x).map f)) := by
  induction xs with
  | nil => rfl
  | cons x xs ih =>
    rw [List.map_cons, conj_cons, ih]
    cases hp : p x with
    | true => simp [hp, and_assoc]
    | false => simp [hp, and_left_comm]

end Truth

/-- The conjunct is one of the field, or of none. -/
def Conjunct.IsOf (tag : Option String) (x : Conjunct) : Bool := x.tag = tag

/-- A conjunction of conjuncts, field by field: those of no field, then those of each. -/
theorem Truth.conj_by_tag (f : Conjunct → Truth) {tags : List String} (htags : tags.Nodup)
    {xs : List Conjunct} (hxs : ∀ x ∈ xs, ∀ tag, x.tag = some tag → tag ∈ tags) :
    conj (xs.map f) = (conj ((xs.filter (Conjunct.IsOf none)).map f)).and
      (conj (tags.map fun tag => conj ((xs.filter (Conjunct.IsOf (some tag))).map f))) := by
  induction tags generalizing xs with
  | nil =>
    have hnone : ∀ x ∈ xs, Conjunct.IsOf none x = true := by
      intro x hx
      cases htag : x.tag with
      | none => simp [Conjunct.IsOf, htag]
      | some tag => exact absurd (hxs x hx tag htag) List.not_mem_nil
    rw [List.filter_eq_self.mpr hnone]
    exact (and_yes _).symm
  | cons tag tags ih =>
    obtain ⟨hfresh, htags⟩ := List.nodup_cons.mp htags
    -- the conjuncts of the first field are put aside, which the other fields do not notice
    have hothers : ∀ other, other ≠ some tag →
        (xs.filter fun x => !Conjunct.IsOf (some tag) x).filter (Conjunct.IsOf other) =
          xs.filter (Conjunct.IsOf other) := by
      intro other hother
      rw [List.filter_filter]
      refine List.filter_congr fun x _ => ?_
      by_cases hx : x.tag = other
      · simp [Conjunct.IsOf, hx, hother]
      · simp [Conjunct.IsOf, hx]
    have hleft : ∀ x ∈ xs.filter fun x => !Conjunct.IsOf (some tag) x,
        ∀ other, x.tag = some other → other ∈ tags := by
      intro x hx other hother
      obtain ⟨hmem, hne⟩ := List.mem_filter.mp hx
      rcases List.mem_cons.mp (hxs x hmem other hother) with rfl | hin
      · simp [Conjunct.IsOf, hother] at hne
      · exact hin
    have hrest := ih htags hleft
    rw [conj_partition f (Conjunct.IsOf (some tag)), hrest, and_left_comm, hothers none nofun,
      List.map_cons, conj_cons]
    congr 3
    refine List.map_congr_left fun other hmem => ?_
    have hne : some other ≠ some tag := fun h => hfresh (Option.some.inj h ▸ hmem)
    rw [hothers (some other) hne]

/-! ### Attachments -/

/-- A condition that is attached for a field. -/
structure Attachment where
  tag : String
  combine : Combine
  condition : Condition

/-- The conjuncts after an attachment. -/
def Attachment.on (a : Attachment) (xs : List Conjunct) : List Conjunct :=
  match a.combine with
  | .and => xs ++ [⟨some a.tag, a.condition⟩]
  | .andNot => xs ++ [⟨some a.tag, .not a.condition⟩]
  | .or => (Query.orLast a.tag a.condition xs).getD (xs ++ [⟨some a.tag, a.condition⟩])

namespace Query

variable {q : Query} {tag : String} {c : Condition} {xs ys : List Conjunct}

/-- The query with some conditions attached, one after the other. -/
def attachAll (q : Query) (calls : List Attachment) : Query :=
  calls.foldl (fun q a => q.attach a.tag a.combine a.condition) q

/-- The conjuncts of a field, or those of none. -/
def conjunctsOf (q : Query) (tag : Option String) : List Conjunct :=
  q.conjuncts.filter (Conjunct.IsOf tag)

/-- The last conjunct of a field is found among all as among those of the field. -/
theorem filter_orLast (tag : String) (c : Condition) (xs : List Conjunct) :
    (orLast tag c xs).map (List.filter (Conjunct.IsOf (some tag))) =
      orLast tag c (xs.filter (Conjunct.IsOf (some tag))) := by
  induction xs with
  | nil => rfl
  | cons x rest ih =>
    -- a condition of another tag is passed over, so it does not matter whether it is there
    by_cases hx : x.tag = some tag
    · have hof : Conjunct.IsOf (some tag) x = true := by simp [Conjunct.IsOf, hx]
      rw [List.filter_cons_of_pos hof, orLast, orLast, ← ih]
      cases orLast tag c rest with
      | some changed => simp [List.filter_cons_of_pos hof]
      | none => simp [hx, Conjunct.IsOf]
    · have hof : ¬ Conjunct.IsOf (some tag) x = true := by simp [Conjunct.IsOf, hx]
      rw [List.filter_cons_of_neg hof, orLast, ← ih]
      cases orLast tag c rest with
      | some changed => simp [List.filter_cons_of_neg hof]
      | none => simp [hx]

/-- The conjuncts of others stay when one of a field is changed. -/
theorem filter_orLast_other {other : Option String} (hother : other ≠ some tag)
    (h : orLast tag c xs = some ys) :
    ys.filter (Conjunct.IsOf other) = xs.filter (Conjunct.IsOf other) := by
  obtain ⟨before, x, after, rfl, hx, -, rfl⟩ := orLast_eq_some_iff.mp h
  have hnot (condition : Condition) : ¬ Conjunct.IsOf other ⟨x.tag, condition⟩ = true := by
    simp [Conjunct.IsOf, hx, hother.symm]
  rw [List.filter_append, List.filter_append, List.filter_cons_of_neg (hnot _),
    List.filter_cons_of_neg (hnot x.condition)]

end Query

namespace Attachment

variable {xs : List Conjunct}

/-- What an attachment does to the conjuncts of its field, it does to them alone. -/
theorem filter_on (a : Attachment) (xs : List Conjunct) :
    (a.on xs).filter (Conjunct.IsOf (some a.tag)) =
      a.on (xs.filter (Conjunct.IsOf (some a.tag))) := by
  have hself : ∀ c, Conjunct.IsOf (some a.tag) ⟨some a.tag, c⟩ = true :=
    fun c => by simp [Conjunct.IsOf]
  unfold on
  split
  · simp [List.filter_append, hself]
  · simp [List.filter_append, hself]
  · rw [← Query.filter_orLast]
    cases Query.orLast a.tag a.condition xs with
    | some changed => rfl
    | none => simp [List.filter_append, hself]

/-- The conjuncts of others stay as they are. -/
theorem filter_on_other {other : Option String} (a : Attachment) (hother : other ≠ some a.tag)
    (xs : List Conjunct) :
    (a.on xs).filter (Conjunct.IsOf other) = xs.filter (Conjunct.IsOf other) := by
  have hself : ∀ c, Conjunct.IsOf other ⟨some a.tag, c⟩ = false :=
    fun c => by simp [Conjunct.IsOf, hother.symm]
  unfold on
  split
  · simp [List.filter_append, hself]
  · simp [List.filter_append, hself]
  · cases hlast : Query.orLast a.tag a.condition xs with
    | some changed => exact Query.filter_orLast_other hother hlast
    | none => simp [List.filter_append, hself]

/-- Of a list of attachments, the conjuncts of a field notice those of the field. -/
theorem filter_foldl_on (calls : List Attachment) (tag : String) (xs : List Conjunct) :
    (calls.foldl (fun xs a => a.on xs) xs).filter (Conjunct.IsOf (some tag)) =
      (calls.filter fun a => a.tag = tag).foldl (fun xs a => a.on xs)
        (xs.filter (Conjunct.IsOf (some tag))) := by
  induction calls generalizing xs with
  | nil => rfl
  | cons a calls ih =>
    rw [List.foldl_cons, ih]
    by_cases htag : a.tag = tag
    · subst htag
      rw [filter_on, List.filter_cons_of_pos (by simp), List.foldl_cons]
    · rw [filter_on_other a (by simpa using Ne.symm htag), List.filter_cons_of_neg (by simpa)]

/-- The conjuncts of no field notice nothing. -/
theorem filter_none_foldl_on (calls : List Attachment) (xs : List Conjunct) :
    (calls.foldl (fun xs a => a.on xs) xs).filter (Conjunct.IsOf none) =
      xs.filter (Conjunct.IsOf none) := by
  induction calls generalizing xs with
  | nil => rfl
  | cons a calls ih =>
    have hother : none ≠ some a.tag := nofun
    rw [List.foldl_cons, ih, filter_on_other a hother]

end Attachment

namespace Query

variable {q : Query} {calls : List Attachment} {v : Atom Term → Truth}

/-- Attaching changes the conditions alone. -/
theorem conjuncts_attach (q : Query) (a : Attachment) :
    (q.attach a.tag a.combine a.condition).conjuncts = a.on q.conjuncts := by
  unfold Attachment.on
  cases a.combine with
  | and => rfl
  | andNot => rfl
  | or =>
    rw [attach]
    cases orLast a.tag a.condition q.conjuncts with
    | some changed => rfl
    | none => rfl

/-- Joining a path before changes nothing in this. -/
theorem conjuncts_follow_attach (q : Query) (path : JoinPath) (a : Attachment) :
    ((q.follow path).1.attach a.tag a.combine a.condition).conjuncts = a.on q.conjuncts := by
  obtain ⟨joins, fault, hfollow⟩ := q.follow_frame path
  rw [conjuncts_attach, hfollow]

/-- So do many attachments, one after the other. -/
theorem conjuncts_attachAll (q : Query) (calls : List Attachment) :
    (q.attachAll calls).conjuncts = calls.foldl (fun xs a => a.on xs) q.conjuncts := by
  unfold attachAll
  induction calls generalizing q with
  | nil => rfl
  | cons a calls ih => rw [List.foldl_cons, List.foldl_cons, ih, conjuncts_attach]

/-- The conjuncts of a field come of what is attached for the field alone. -/
theorem conjunctsOf_attachAll (q : Query) (calls : List Attachment) (tag : String) :
    (q.attachAll calls).conjunctsOf (some tag) =
      (q.attachAll (calls.filter fun a => a.tag = tag)).conjunctsOf (some tag) := by
  have hself : (calls.filter fun a => a.tag = tag).filter (fun a => a.tag = tag) =
      calls.filter fun a => a.tag = tag := by simp
  rw [conjunctsOf, conjunctsOf, conjuncts_attachAll, conjuncts_attachAll,
    Attachment.filter_foldl_on, Attachment.filter_foldl_on, hself]

/-- Conditions without a tag stay as they are. -/
theorem conjunctsOf_none_attachAll (q : Query) (calls : List Attachment) :
    (q.attachAll calls).conjunctsOf none = q.conjunctsOf none := by
  rw [conjunctsOf, conjuncts_attachAll, Attachment.filter_none_foldl_on, conjunctsOf]

/-- Attachments of resolved conditions keep a query sound. -/
theorem Sound.attachAll (hq : q.Sound) (hcalls : ∀ a ∈ calls, a.condition.Resolved) :
    (q.attachAll calls).Sound := by
  unfold Query.attachAll
  induction calls generalizing q with
  | nil => exact hq
  | cons a calls ih =>
    obtain ⟨ha, hcalls⟩ := List.forall_mem_cons.mp hcalls
    exact ih (hq.attach a.tag a.combine ha) hcalls

/-! ### The clause -/

/-- What some conjuncts demand of a row together. -/
def demand (v : Atom Term → Truth) (xs : List Conjunct) : Truth :=
  Truth.conj (xs.map fun x => x.condition.restriction v)

/-- The fields that have conjuncts. -/
def tags (q : Query) : List String := (q.conjuncts.filterMap Conjunct.tag).dedup

/-- The tag of a condition is one of the tags of the query. -/
theorem mem_tags {x : Conjunct} (hx : x ∈ q.conjuncts) {tag : String} (htag : x.tag = some tag) :
    tag ∈ q.tags := List.mem_dedup.mpr (List.mem_filterMap.mpr ⟨x, hx, htag⟩)

/-- The conditions of a query demand what its fields demand, and the conjuncts of none. -/
theorem restriction_by_tag (q : Query) (v : Atom Term → Truth) {tags : List String}
    (hnodup : tags.Nodup) (htags : ∀ x ∈ q.conjuncts, ∀ tag, x.tag = some tag → tag ∈ tags) :
    q.condition.restriction v = (demand v (q.conjunctsOf none)).and
      (Truth.conj (tags.map fun tag => demand v (q.conjunctsOf (some tag)))) := by
  rw [condition, restriction_merged]
  exact Truth.conj_by_tag _ hnodup htags

/-- Queries whose fields have the same conjuncts, and so has no field, demand the same. -/
theorem restriction_condition_congr {r : Query} (h : ∀ tag, q.conjunctsOf tag = r.conjunctsOf tag)
    (v : Atom Term → Truth) : q.condition.restriction v = r.condition.restriction v := by
  have hmem : ∀ x ∈ q.conjuncts, x ∈ r.conjuncts := by
    intro x hx
    have hof : x ∈ q.conjunctsOf x.tag := List.mem_filter.mpr ⟨hx, by simp [Conjunct.IsOf]⟩
    rw [h] at hof
    exact (List.mem_filter.mp hof).1
  -- the fields of the one query are among those of the other
  have hnodup : r.tags.Nodup := List.nodup_dedup _
  rw [restriction_by_tag q v hnodup fun x hx tag htag => mem_tags (hmem x hx) htag,
    restriction_by_tag r v hnodup fun x hx tag htag => mem_tags hx htag]
  simp only [h]

/-- **Fields are independent.** Conditions that are attached for a field (`Query.attachAll`) change
the conjuncts of that field (`Query.conjunctsOf`), as if no others were attached; those of no field
stay.  So the clause is the conjunction of what the fields come to, each by itself, and it is the
same (`Query.WhereIs`) in whatever order the conditions are attached, as long as those for one field
keep theirs. -/
theorem attachments_independent (q : Query) (calls : List Attachment) :
    (∀ tag, (q.attachAll calls).conjunctsOf (some tag) =
      (q.attachAll (calls.filter fun a => a.tag = tag)).conjunctsOf (some tag)) ∧
    (q.attachAll calls).conjunctsOf none = q.conjunctsOf none ∧
    (q.Sound → (∀ a ∈ calls, a.condition.Resolved) → ∀ v t,
      ((q.attachAll calls).WhereIs v t ↔ (demand v (q.conjunctsOf none)).and
        (Truth.conj ((q.attachAll calls).tags.map fun tag => demand v
          ((q.attachAll (calls.filter fun a => a.tag = tag)).conjunctsOf (some tag)))) = t) ∧
      ∀ others : List Attachment,
        (∀ tag, (others.filter fun a => a.tag = tag) = calls.filter fun a => a.tag = tag) →
        ((q.attachAll others).WhereIs v t ↔ (q.attachAll calls).WhereIs v t)) := by
  have hnone := conjunctsOf_none_attachAll q
  have hof := conjunctsOf_attachAll q
  refine ⟨hof calls, hnone calls, fun hq hcalls v t => ?_⟩
  have hsound := hq.attachAll hcalls
  refine ⟨?_, fun others hothers => ?_⟩
  · rw [whereIs_iff hsound, ← restriction_merged]
    show (q.attachAll calls).condition.restriction v = t ↔ _
    rw [restriction_by_tag _ v (List.nodup_dedup _) fun x hx tag htag => mem_tags hx htag, hnone]
    simp only [← hof]
    rfl
  · have hresolved : ∀ a ∈ others, a.condition.Resolved := by
      intro a ha
      have hmem : a ∈ others.filter fun b => b.tag = a.tag :=
        List.mem_filter.mpr ⟨ha, decide_eq_true rfl⟩
      rw [hothers] at hmem
      exact hcalls a (List.mem_filter.mp hmem).1
    -- the conditions of each tag are the same, and only the order of the tags can differ
    have hsame : ∀ tag, (q.attachAll others).conjunctsOf tag =
        (q.attachAll calls).conjunctsOf tag := by
      intro tag
      cases tag with
      | none => rw [hnone, hnone]
      | some tag => rw [hof others, hof calls, hothers]
    rw [whereIs_iff (hq.attachAll hresolved), whereIs_iff hsound, ← restriction_merged,
      ← restriction_merged]
    show (q.attachAll others).condition.restriction v = t ↔ _
    rw [restriction_condition_congr hsame]
    rfl

/-- A condition on the name of a product, for the field of that name. -/
def nameIs (combine : Combine) (text : String) : Attachment :=
  ⟨"name", combine, .compare (.column ⟨'p', 0⟩ (.bare "name")) .eq (.text text)⟩

/-- A condition on the price of a product. -/
def priceOver (combine : Combine) (n : Int64) : Attachment :=
  ⟨"price", combine, .compare (.column ⟨'p', 0⟩ (.bare "price")) .gt (.int n)⟩

/-- Two names and the bounds of a price in turn, after a condition of no field: the prices may as
well be attached first. -/
theorem attachments_independent_interleaved : ∃ q r s : Query,
    r = q.attachAll [nameIs .and "pen", priceOver .and 1, nameIs .or "ink", priceOver .andNot 9] ∧
    s = q.attachAll [priceOver .and 1, priceOver .andNot 9, nameIs .and "pen", nameIs .or "ink"] ∧
    r.whereSql =
      "1=1 AND (p0.name = $1 OR p0.name = $2) AND p0.price > $3 AND NOT (p0.price > $4)" ∧
    s.whereSql =
      "1=1 AND p0.price > $1 AND NOT (p0.price > $2) AND (p0.name = $3 OR p0.name = $4)" ∧
    ∀ v t, s.WhereIs v t ↔ r.WhereIs v t := by
  have hbase : (⟨'p', 0⟩ : Sql.Alias).Assigned := ⟨"products", 0, by decide⟩
  let q : Query := {
    registry := .empty, base := ⟨⟨'p', 0⟩, "product"⟩, entity := .empty "product" "products",
    joins := [], conjuncts := [⟨none, .constant true⟩], order := [], limit := none,
    offset := none, fault := none }
  have hq : q.Sound :=
    ⟨hbase, List.forall_mem_singleton.mpr fun x hx => absurd hx List.not_mem_nil⟩
  have hname : ∀ combine text, (nameIs combine text).condition.Resolved :=
    fun _ _ => List.forall_mem_singleton.mpr ⟨hbase, "name", rfl⟩
  have hprice : ∀ combine n, (priceOver combine n).condition.Resolved :=
    fun _ _ => List.forall_mem_singleton.mpr ⟨hbase, "price", rfl⟩
  obtain ⟨-, -, hclause⟩ := attachments_independent q
    [nameIs .and "pen", priceOver .and 1, nameIs .or "ink", priceOver .andNot 9]
  refine ⟨q, _, _, rfl, rfl, by decide +kernel, by decide +kernel, fun v t => ?_⟩
  refine (hclause hq (by simp [hname, hprice]) v t).2 _ fun tag => ?_
  -- the calls of either field are in the same order in both lists
  by_cases hn : "name" = tag
  · subst hn
    rfl
  · by_cases hp : "price" = tag
    · subst hp
      rfl
    · simp [nameIs, priceOver, hn, hp]

end Query

end Listing
