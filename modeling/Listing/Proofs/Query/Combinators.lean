import Listing.Proofs.Search.Meaning

namespace Listing

/-!
# Conditions put to a query in turn

Conditions are put to a query one after the other: each has to hold besides those before it, or has
to fail besides them, or may hold instead of all of them.  The query keeps a list of conjuncts, and
an alternative takes the place of the whole list; the `WHERE` clause says all the same what the
calls say in their order.

* `Constraint`, `Query.constrainAll` — a call that puts a condition to a query, and several calls;
* `Constraint.demanded` — what some calls demand, from the first to the last;
* `Sql.Condition.Full` — no part of a condition is empty, so none is left out of its text;
* `Query.constrain_spec` — what one call makes of a query that demands something;
* `Query.demand_constrainAll` — what all calls make of a query without conditions;
* `Query.constraints_mean` — the clause says what the calls demand.
-/

open Sql (Atom Condition)

/-- A call that puts a condition to a query. -/
inductive Constraint
  | also (c : Condition)
  | orElse (c : Condition)
  | butNot (c : Condition)

namespace Constraint

/-- The condition that is put to the query. -/
def condition : Constraint → Condition
  | also c | orElse c | butNot c => c

/-- What the first call demands, if conditions have the given values. -/
def alone (value : Condition → Truth) : Constraint → Truth
  | also c | orElse c => value c
  | butNot c => (value c).not

/-- What is demanded after a call, from what was demanded before it. -/
def after (value : Condition → Truth) (before : Truth) : Constraint → Truth
  | also c => before.and (value c)
  | orElse c => before.or (value c)
  | butNot c => before.and (value c).not

/-- What some calls demand: the first by itself, and each other together with all before it. -/
def demanded (value : Condition → Truth) : List Constraint → Truth
  | [] => .yes
  | first :: rest => rest.foldl (after value) (first.alone value)

/-- What some calls demand depends on the values of their own conditions only. -/
theorem demanded_congr {value value' : Condition → Truth} {xs : List Constraint}
    (h : ∀ x ∈ xs, value x.condition = value' x.condition) :
    demanded value xs = demanded value' xs := by
  cases xs with
  | nil => rfl
  | cons first rest =>
    obtain ⟨hfirst, hrest⟩ := List.forall_mem_cons.mp h
    have halone : first.alone value = first.alone value' := by
      cases first with
      | also c | orElse c => exact hfirst
      | butNot c => exact congrArg Truth.not hfirst
    rw [demanded, demanded, halone]
    -- the first constraint stands alone, and each later one is put after those before it
    refine List.foldl_ext _ _ _ fun before x hx => ?_
    have hx := hrest x hx
    cases x with
    | also c => exact congrArg before.and hx
    | orElse c => exact congrArg before.or hx
    | butNot c => exact congrArg (fun t => before.and t.not) hx

end Constraint

/-! ### Full conditions -/

namespace Sql.Condition

mutual

/-- The condition and all conditions inside it. -/
def subtrees : Condition → List Condition
  | all parts => all parts :: subtreesOf parts
  | any parts => any parts :: subtreesOf parts
  | not part => not part :: subtrees part
  | leaf => [leaf]

/-- The conditions in several conditions. -/
def subtreesOf : List Condition → List Condition
  | [] => []
  | part :: rest => subtrees part ++ subtreesOf rest

end

/-- Nothing in the condition is empty. -/
def Full (c : Condition) : Prop := ∀ s ∈ c.subtrees, s.isEmpty = false

variable {c part : Condition} {parts : List Condition}

/-- A condition is a part of itself. -/
theorem mem_subtrees_self (c : Condition) : c ∈ c.subtrees := by
  cases c <;> exact List.mem_cons_self

/-- A full condition says something. -/
theorem Full.isEmpty (h : c.Full) : c.isEmpty = false := h c c.mem_subtrees_self

/-- The parts of a part of a list are among those of the list. -/
theorem mem_subtreesOf {s : Condition} (hpart : part ∈ parts) (hs : s ∈ part.subtrees) :
    s ∈ subtreesOf parts := by
  induction parts with
  | nil => cases hpart
  | cons first rest ih =>
    rw [subtreesOf, List.mem_append]
    rcases List.mem_cons.mp hpart with rfl | hpart
    · exact .inl hs
    · exact .inr (ih hpart)

/-- The parts of a full conjunction are full. -/
theorem Full.of_all (h : (all parts).Full) (hpart : part ∈ parts) : part.Full :=
  fun s hs => h s (List.mem_cons_of_mem _ (mem_subtreesOf hpart hs))

/-- So are those of a disjunction. -/
theorem Full.of_any (h : (any parts).Full) (hpart : part ∈ parts) : part.Full :=
  fun s hs => h s (List.mem_cons_of_mem _ (mem_subtreesOf hpart hs))

/-- So is what is negated. -/
theorem Full.of_not (h : (not part).Full) : part.Full :=
  fun s hs => h s (List.mem_cons_of_mem _ hs)

/-- Pruning leaves a list of parts as it is, if no part is empty or changed by it. -/
theorem prunedParts_eq_self (hne : ∀ part ∈ parts, part.isEmpty = false)
    (hsame : ∀ part ∈ parts, part.pruned = part) : prunedParts parts = parts := by
  induction parts with
  | nil => rfl
  | cons first rest ih =>
    obtain ⟨hfirst, hrest⟩ := List.forall_mem_cons.mp hne
    obtain ⟨hfirst', hrest'⟩ := List.forall_mem_cons.mp hsame
    rw [prunedParts, hfirst, hfirst', ih hrest hrest']
    rfl

/-- Nothing is left out of a full condition. -/
theorem pruned_of_full (h : c.Full) : c.pruned = c := by
  induction c using induction with
  | all parts ih =>
    rw [pruned, prunedParts_eq_self (fun part hpart => (h.of_all hpart).isEmpty)
      fun part hpart => ih part hpart (h.of_all hpart)]
  | any parts ih =>
    rw [pruned, prunedParts_eq_self (fun part hpart => (h.of_any hpart).isEmpty)
      fun part hpart => ih part hpart (h.of_any hpart)]
  | not part ih => rw [pruned, ih h.of_not]
  | compare | nullness | inList | constant => rfl

/-- A full condition restricts a query to the rows for which it holds. -/
theorem restriction_of_full (h : c.Full) (v : Atom Term → Truth) : c.restriction v = c.eval v := by
  rw [restriction_of_nonempty h.isEmpty, pruned_of_full h]

/-- An alternative that says something makes a condition that does. -/
theorem isEmpty_orElse {first other : Condition} (h : other.isEmpty = false) :
    (first.orElse other).isEmpty = false := by
  unfold orElse
  split
  · exact (isEmpty_group_of_mem (List.mem_append_right _ List.mem_cons_self) h).2
  · exact (isEmpty_group_of_mem (List.mem_cons_of_mem _ List.mem_cons_self) h).2

end Sql.Condition

/-! ### Calls -/

namespace Query

variable {q : Query} {x : Constraint} {xs : List Constraint} {v : Atom Term → Truth}

/-- The query after a call. -/
def constrain (q : Query) : Constraint → Query
  | .also c => q.also c
  | .orElse c => q.orElse c
  | .butNot c => q.butNot c

/-- The query after some calls, from the first to the last. -/
def constrainAll (q : Query) (xs : List Constraint) : Query := xs.foldl constrain q

/-- The query has conditions, and none of them is empty. -/
def Constrained (q : Query) : Prop :=
  q.conjuncts ≠ [] ∧ ∀ x ∈ q.conjuncts, x.condition.isEmpty = false

/-- The conditions of a constrained query say something together. -/
theorem Constrained.merged (hq : q.Constrained) : (merged q.conjuncts).isEmpty = false := by
  obtain ⟨hne, hall⟩ := hq
  unfold Query.merged
  split
  · rename_i only heq
    exact hall only (heq ▸ List.mem_cons_self)
  · obtain ⟨first, hfirst⟩ := List.exists_mem_of_ne_nil _ hne
    exact (Condition.isEmpty_group_of_mem (List.mem_map_of_mem hfirst) (hall first hfirst)).1

/-- A condition that says something constrains a query. -/
theorem constrained_also {c : Condition} (hq : ∀ x ∈ q.conjuncts, x.condition.isEmpty = false)
    (hc : c.isEmpty = false) : (q.also c).Constrained :=
  ⟨List.append_ne_nil_of_right_ne_nil _ (List.cons_ne_nil _ _),
    List.forall_mem_append.mpr ⟨hq, List.forall_mem_singleton.mpr hc⟩⟩

/-- With a further condition a query demands that too. -/
theorem demand_also (c : Condition) :
    demand v (q.also c).conjuncts = (demand v q.conjuncts).and (c.restriction v) := by
  rw [← demand_singleton ⟨none, c⟩, ← demand_append]
  rfl

/-- An alternative to nothing is a condition like others. -/
theorem orElse_of_nil (hq : q.conjuncts = []) (c : Condition) : q.orElse c = q.also c := by
  rw [orElse, hq]
  rfl

/-- An alternative to some conditions is one to all of them together. -/
theorem orElse_of_ne_nil (hq : q.conjuncts ≠ []) (c : Condition) :
    (q.orElse c).conjuncts = [⟨none, (merged q.conjuncts).orElse c⟩] := by
  rw [orElse, if_neg (by simpa using hq)]

/-- The first call gives a query that demands what the call demands by itself. -/
theorem constrain_first (hq : q.conjuncts = []) (hx : x.condition.isEmpty = false) :
    (q.constrain x).Constrained ∧
      demand v (q.constrain x).conjuncts = x.alone fun c => c.restriction v := by
  have hnone : ∀ y ∈ q.conjuncts, y.condition.isEmpty = false := by simp [hq]
  have halone (c : Condition) : demand v (q.also c).conjuncts = c.restriction v := by
    rw [demand_also, hq]
    rfl
  -- without conditions an alternative is a further condition, and only a negation is changed
  cases x with
  | also c => exact ⟨constrained_also hnone hx, halone c⟩
  | orElse c =>
    show (q.orElse c).Constrained ∧ demand v (q.orElse c).conjuncts = _
    rw [orElse_of_nil hq]
    exact ⟨constrained_also hnone hx, halone c⟩
  | butNot c =>
    exact ⟨constrained_also hnone hx, (halone (.not c)).trans (Condition.restriction_not hx)⟩

/-- Each other call gives a query that demands what the call makes of what was demanded before. -/
theorem constrain_spec (hq : q.Constrained) (hx : x.condition.isEmpty = false) :
    (q.constrain x).Constrained ∧ demand v (q.constrain x).conjuncts =
      x.after (fun c => c.restriction v) (demand v q.conjuncts) := by
  cases x with
  | also c => exact ⟨constrained_also hq.2 hx, demand_also c⟩
  | orElse c =>
    -- the conjuncts become one, whose value is theirs together
    have hvalue := Condition.restriction_orElse (v := v) hq.merged hx
    rw [restriction_merged] at hvalue
    refine ⟨⟨?_, ?_⟩, ?_⟩
    · show (q.orElse c).conjuncts ≠ []
      rw [orElse_of_ne_nil hq.1]
      exact List.cons_ne_nil _ _
    · show ∀ y ∈ (q.orElse c).conjuncts, y.condition.isEmpty = false
      rw [orElse_of_ne_nil hq.1]
      exact List.forall_mem_singleton.mpr (Condition.isEmpty_orElse hx)
    · show demand v (q.orElse c).conjuncts = _
      rw [orElse_of_ne_nil hq.1, demand_singleton]
      exact hvalue
  | butNot c =>
    refine ⟨constrained_also hq.2 hx, ?_⟩
    show demand v (q.also (.not c)).conjuncts = _
    rw [demand_also, Condition.restriction_not (c := c) hx]
    rfl

/-- Calls on a query that demands something make of it what they demand after it. -/
theorem constrained_constrainAll (hq : q.Constrained)
    (hxs : ∀ x ∈ xs, x.condition.isEmpty = false) :
    (q.constrainAll xs).Constrained ∧ demand v (q.constrainAll xs).conjuncts =
      xs.foldl (Constraint.after fun c => c.restriction v) (demand v q.conjuncts) := by
  induction xs generalizing q with
  | nil => exact ⟨hq, rfl⟩
  | cons x rest ih =>
    obtain ⟨hx, hrest⟩ := List.forall_mem_cons.mp hxs
    obtain ⟨hstep, hdemand⟩ := constrain_spec (v := v) hq hx
    obtain ⟨hall, hvalue⟩ := ih hstep hrest
    rw [hdemand] at hvalue
    exact ⟨hall, hvalue⟩

/-- A query without conditions demands, after some calls, what the calls demand. -/
theorem demand_constrainAll (hq : q.conjuncts = [])
    (hxs : ∀ x ∈ xs, x.condition.isEmpty = false) :
    (xs ≠ [] → (q.constrainAll xs).Constrained) ∧
      demand v (q.constrainAll xs).conjuncts =
        Constraint.demanded (fun c => c.restriction v) xs := by
  cases xs with
  | nil =>
    refine ⟨fun h => absurd rfl h, ?_⟩
    show demand v q.conjuncts = _
    rw [hq]
    rfl
  | cons first rest =>
    obtain ⟨hfirst, hrest⟩ := List.forall_mem_cons.mp hxs
    obtain ⟨hstep, hdemand⟩ := constrain_first (v := v) hq hfirst
    obtain ⟨hall, hvalue⟩ := constrained_constrainAll (v := v) hstep hrest
    rw [hdemand] at hvalue
    exact ⟨fun _ => hall, hvalue⟩

/-! ### The clause -/

/-- Constraints on resolved operands keep a query sound. -/
theorem sound_constrainAll (hq : q.Sound) (hxs : ∀ x ∈ xs, x.condition.Resolved) :
    (q.constrainAll xs).Sound := by
  induction xs generalizing q with
  | nil => exact hq
  | cons x rest ih =>
    obtain ⟨hx, hrest⟩ := List.forall_mem_cons.mp hxs
    refine ih ?_ hrest
    cases x with
    | also c => exact hq.also hx
    | orElse c => exact hq.orElse hx
    | butNot c => exact hq.also (Condition.resolved_not.mpr hx)

/-- **Constraints combine from the left.** A query without conditions has, after some calls with
full conditions (`Query.constrainAll`), the clause that says what the calls demand
(`Constraint.demanded`): the first its condition, or the negation, and each other its condition
besides, its negation besides, or its condition instead of all that was demanded before.  The clause
is read with the precedence of SQL (`Query.WhereIs`), and under any truth values of the atoms.
Queries that are made of an entity step by step are sound. -/
theorem constraints_mean (hq : q.Sound) (hnone : q.conjuncts = [])
    (hresolved : ∀ x ∈ xs, x.condition.Resolved) (hfull : ∀ x ∈ xs, x.condition.Full) :
    ((q.constrainAll xs).whereSql = "" ↔ xs = []) ∧ ∀ v t, (q.constrainAll xs).WhereIs v t ↔
      Constraint.demanded (Condition.eval v) xs = t := by
  have hsound := sound_constrainAll hq hresolved
  have hdemand (v) := demand_constrainAll (v := v) hnone fun x hx => (hfull x hx).isEmpty
  constructor
  · rw [whereSql_eq_empty_iff hsound]
    constructor
    · intro hempty
      -- one constraint, whichever it is, leaves something to write
      by_contra hne
      have hwritten := ((hdemand fun _ => .yes).1 hne).merged
      exact Bool.false_ne_true (hwritten.symm.trans hempty)
    · rintro rfl
      show (merged q.conjuncts).isEmpty = true
      rw [hnone]
      rfl
  · intro v t
    -- nothing of a full condition is pruned, so it restricts to what it says
    have hvalues : Constraint.demanded (fun c => c.restriction v) xs =
        Constraint.demanded (Condition.eval v) xs :=
      Constraint.demanded_congr fun x hx => Condition.restriction_of_full (hfull x hx) v
    rw [whereIs_iff hsound, ← hvalues, ← (hdemand v).2]
    rfl

/-- The price of a product, compared with a number. -/
def priced (comparison : Sql.Comparison) (n : Int64) : Condition :=
  .compare (priceOf ⟨'p', 0⟩) comparison (.int n)

/-- Calls of all kinds, among them two alternatives in a row. -/
def pricedCalls : List Constraint :=
  [.orElse (priced .eq 1), .also (priced .eq 2), .butNot (.any [priced .gt 3, priced .lt 4]),
    .orElse (.all [priced .gteq 5, priced .lteq 6]), .orElse (priced .eq 7), .also (priced .eq 8)]

/-- The alternatives stand in one disjunction with the conjunction of what was there before, and the
last condition stands outside it. -/
theorem constraints_mean_priced :
    ∃ q : Query, q.conjuncts = [] ∧
      (q.constrainAll pricedCalls).whereSql =
        "((p0.price = $1 AND p0.price = $2 AND NOT (p0.price > $3 OR p0.price < $4)) " ++
          "OR (p0.price >= $5 AND p0.price <= $6) OR p0.price = $7) AND p0.price = $8" ∧
      ∀ v t, (q.constrainAll pricedCalls).WhereIs v t ↔
        ((((((priced .eq 1).eval v).and ((priced .eq 2).eval v)).and
          (((priced .gt 3).eval v).or ((priced .lt 4).eval v)).not).or
          (((priced .gteq 5).eval v).and ((priced .lteq 6).eval v))).or
          ((priced .eq 7).eval v)).and ((priced .eq 8).eval v) = t := by
  obtain ⟨q, hq⟩ : ∃ q, ofEntity assembly "product" = .ok q := ⟨_, rfl⟩
  have hsound := sound_ofEntity hq
  have hprice : (priceOf ⟨'p', 0⟩).Resolved := ⟨⟨"products", 0, rfl⟩, "price", rfl⟩
  have hpriced (comparison) (n) : (priced comparison n).Resolved :=
    Condition.resolved_compare hprice comparison (.int n)
  have hresolved : ∀ x ∈ pricedCalls, x.condition.Resolved := by
    simp [pricedCalls, Constraint.condition, hpriced]
  -- no call has an empty part
  have hfull : ∀ x ∈ pricedCalls, x.condition.Full := by
    simp [pricedCalls, Constraint.condition, Condition.Full, Condition.subtrees,
      Condition.subtreesOf, Condition.isEmpty, Condition.areEmpty, priced]
  cases hq
  have hmeans := (constraints_mean hsound rfl hresolved hfull).2
  refine ⟨_, rfl, by decide +kernel, fun v t => (hmeans v t).trans ?_⟩
  simp [pricedCalls, Constraint.demanded, Constraint.alone, Constraint.after, Condition.eval,
    Condition.evals]

end Query

end Listing
