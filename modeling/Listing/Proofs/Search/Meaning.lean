import Listing.Proofs.Query.Joins
import Listing.Proofs.Query.Tags
import Listing.Proofs.Search.Normal

namespace Listing

/-!
# What a criterion means

A criterion whose field can be resolved joins its path and puts one condition on the field there.
What the condition says is told by the operator and the term, in three-valued logic; and how it goes
with the conditions before it, by the combination.

* `Reading` — what comparisons and null tests come to on a row, and with them all atoms;
* `SearchOperator.meaning` — what an operator and a term say of a column;
* `SearchOperator.condition_means` — the condition that is written says that;
* `Sql.Condition.restriction_orElse` — a condition with an alternative is their disjunction;
* `Query.demand_orLast` — what is demanded with an alternative to a conjunct;
* `Query.Searched` — what a criterion on a column makes of a query;
* `Query.search_means` — what a search with a criterion joins, keeps and demands.
-/

open Sql (Atom Comparison Condition Operand)

/-! ### Disjunctions -/

namespace Truth

/-- Two lists of alternatives offer what either offers. -/
theorem disj_append (ts us : List Truth) : disj (ts ++ us) = (disj ts).or (disj us) := by
  induction ts with
  | nil => rfl
  | cons t ts ih => rw [List.cons_append, disj_cons, disj_cons, ih, or_assoc]

end Truth

namespace Sql.Condition

variable {first other c : Condition} {v : Atom Term → Truth}

/-- A condition that says something restricts to what is left of it. -/
theorem restriction_of_nonempty (h : c.isEmpty = false) : c.restriction v = c.pruned.eval v := by
  rw [restriction, h]
  rfl

/-- The negation of a condition that demands something demands the opposite. -/
theorem restriction_not (h : c.isEmpty = false) :
    (not c).restriction v = (c.restriction v).not := by
  have hnot : (not c).isEmpty = false := h
  rw [restriction_of_nonempty hnot, restriction_of_nonempty h]
  rfl

/-- A last part that says something is pruned and stays. -/
theorem prunedParts_concat (parts : List Condition) (h : c.isEmpty = false) :
    prunedParts (parts ++ [c]) = prunedParts parts ++ [c.pruned] := by
  induction parts with
  | nil => simp [prunedParts, h]
  | cons part rest ih =>
    rw [List.cons_append, prunedParts, prunedParts, ih]
    split
    · rfl
    · rfl

/-- Parts have their values one by one. -/
theorem evals_eq_map (v : Atom Term → Truth) (parts : List Condition) :
    evals v parts = parts.map (eval v) := by
  induction parts with
  | nil => rfl
  | cons part rest ih => rw [evals, List.map_cons, ih]

/-- With an alternative, a condition is the disjunction of both, be it one already or not. -/
theorem restriction_orElse (hfirst : first.isEmpty = false) (hother : other.isEmpty = false) :
    (first.orElse other).restriction v = (first.restriction v).or (other.restriction v) := by
  have hparts (parts : List Condition) :
      (any (parts ++ [other])).restriction v =
        (Truth.disj (evals v (prunedParts parts))).or (other.restriction v) := by
    have hne : (any (parts ++ [other])).isEmpty = false :=
      (isEmpty_group_of_mem (List.mem_append_right _ List.mem_cons_self) hother).2
    rw [restriction_of_nonempty hne, restriction_of_nonempty hother]
    show Truth.disj (evals v (prunedParts (parts ++ [other]))) = _
    rw [prunedParts_concat parts hother, evals_eq_map, evals_eq_map, List.map_append,
      Truth.disj_append]
    exact congrArg _ (Truth.or_no _)
  unfold orElse
  split
  · -- a disjunction takes the alternative as a further member
    rename_i parts
    rw [hparts, restriction_of_nonempty hfirst]
    rfl
  · have hone := hparts [first]
    rw [restriction_of_nonempty hfirst]
    simpa [prunedParts, hfirst, evals] using hone

end Sql.Condition

/-! ### Readings -/

/-- How a row is read: what comparisons of its columns come to, and which columns are null. -/
structure Reading where
  compare : Operand → Comparison → Term → Truth
  isNull : Operand → Bool

namespace Reading

/-- A column is one of some values if it equals the one or the other. -/
def isOneOf (s : Reading) (x : Operand) (values : List Term) : Truth :=
  Truth.disj (values.map (s.compare x .eq))

/-- What an atom comes to. -/
def judge (s : Reading) : Atom Term → Truth
  | .compare lhs comparison value => s.compare lhs comparison value
  | .nullness lhs expected => .ofBool (s.isNull lhs == expected)
  | .inList lhs values negated =>
    if negated then (s.isOneOf lhs values).not else s.isOneOf lhs values

end Reading

namespace SearchOperator

/-- What an operator and a term say of a column; a term that does not fit says nothing. -/
def meaning (s : Reading) (x : Operand) : SearchOperator → Term → Truth
  | .like, pattern => s.compare x .like pattern
  | .ilike, pattern => s.compare x .ilike pattern
  | .eq, value => s.compare x .eq value
  | .gt, value => s.compare x .gt value
  | .lt, value => s.compare x .lt value
  | .gteq, value => s.compare x .gteq value
  | .lteq, value => s.compare x .lteq value
  | .isNull, expected =>
    match expected.bool? with
    | some true => .ofBool (s.isNull x)
    | some false => (Truth.ofBool (s.isNull x)).not
    | none => .unknown
  | .between, .list [low, high] => (s.compare x .gteq low).and (s.compare x .lteq high)
  | .isIn, .list values => s.isOneOf x values
  | .notIn, .list values => (s.isOneOf x values).not
  | _, _ => .unknown

/-- A term that fits has a condition, and the condition says of the column what operator and term
say of it. -/
theorem condition_means (x : Operand) {operator : SearchOperator} {term : Term}
    (h : operator.fits term = true) :
    ∃ c, operator.condition x term = .ok c ∧ c.isEmpty = false ∧
      ∀ s : Reading, c.restriction s.judge = operator.meaning s x term := by
  -- each operator has its own shapes of terms, and no condition for any other
  cases operator with
  | isNull =>
    obtain ⟨b, hb⟩ := Option.isSome_iff_exists.mp h
    refine ⟨.nullness x b, by rw [condition, hb], rfl, fun s => ?_⟩
    show Truth.ofBool (s.isNull x == b) = _
    rw [meaning, hb]
    cases b <;> cases s.isNull x <;> rfl
  | isIn =>
    cases term with
    | list values =>
      refine ⟨.isIn x values, rfl, ?_, fun s => ?_⟩
      · cases values <;> rfl
      · cases values <;> rfl
    | _ => cases h
  | notIn =>
    cases term with
    | list values =>
      refine ⟨.isNotIn x values, rfl, ?_, fun s => ?_⟩
      · cases values <;> rfl
      · cases values <;> rfl
    | _ => cases h
  | between =>
    cases term with
    | list values =>
      obtain ⟨low, high, rfl⟩ := List.length_eq_two.mp (by simpa [fits] using h)
      refine ⟨.between x low high, rfl, rfl, fun s => ?_⟩
      rw [Condition.between, Condition.restriction_all, List.map_cons, List.map_singleton,
        Truth.conj_cons, Truth.conj_cons, Truth.conj_nil, Truth.and_yes]
      rfl
    | _ => cases h
  | like | ilike | eq | gt | lt | gteq | lteq => exact ⟨_, rfl, rfl, fun s => rfl⟩

end SearchOperator

/-! ### Alternatives -/

namespace Query

variable {q : Query} {tag : String} {c : Condition} {xs ys : List Conjunct}

/-- Two lists of conditions demand what both demand. -/
theorem demand_append (xs ys : List Conjunct) :
    demand v (xs ++ ys) = (demand v xs).and (demand v ys) := by
  rw [demand, List.map_append, Truth.conj_append]
  rfl

/-- One condition demands what it restricts to. -/
theorem demand_singleton (x : Conjunct) : demand v [x] = x.condition.restriction v :=
  Truth.and_yes _

/-- The first condition is demanded with the others. -/
theorem demand_cons (x : Conjunct) (xs : List Conjunct) :
    demand v (x :: xs) = (x.condition.restriction v).and (demand v xs) := rfl

/-- What is demanded once an alternative has gone into the last condition of its field. -/
theorem demand_orLast {earlier later : List Conjunct} {last : Conjunct}
    (hlast : last.condition.isEmpty = false) (hc : c.isEmpty = false) (htag : last.tag = some tag)
    (hlater : ∀ y ∈ later, y.tag ≠ some tag) :
    demand v (Attachment.on ⟨tag, .or, c⟩ (earlier ++ last :: later)) =
      (demand v earlier).and
        (((last.condition.restriction v).or (c.restriction v)).and (demand v later)) := by
  have hfound : orLast tag c (earlier ++ last :: later) =
      some (earlier ++ ⟨last.tag, last.condition.orElse c⟩ :: later) :=
    orLast_eq_some_iff.mpr ⟨earlier, last, later, rfl, htag, hlater, rfl⟩
  show demand v ((orLast tag c _).getD _) = _
  rw [hfound, Option.getD_some, demand_append, demand_cons,
    Condition.restriction_orElse hlast hc]

/-- What is demanded with an alternative to nothing. -/
theorem demand_on_unmatched (h : ∀ x ∈ xs, x.tag ≠ some tag) :
    demand v (Attachment.on ⟨tag, .or, c⟩ xs) = (demand v xs).and (c.restriction v) := by
  show demand v ((orLast tag c xs).getD _) = _
  rw [orLast_eq_none_iff.mpr h, Option.getD_none, demand_append, demand_singleton]

/-! ### Criteria -/

/-- What a criterion on a column makes of a query: it joins the path of the criterion from the base,
keeps ordering and window, and demands besides the conditions that are there what operator and term
say of the column, or the opposite.  An alternative goes into the last condition of its field, if
there is one.  What is demanded is what the `WHERE` clause says. -/
structure Searched (q : Query) (c : Criterion) (x : Operand) (r : Query) : Prop where
  joins : r.joins = q.joins ++ (q.madeAlong q.base c.path).map q.registry.joinOf
  steps : (q.madeAlong q.base c.path).map JoinMade.step = c.path
  owners : (q.madeAlong q.base c.path).map JoinMade.owner ++ [(q.follow c.path).2] =
    q.base :: (q.madeAlong q.base c.path).map JoinMade.target
  entity : r.registry = q.registry ∧ r.base = q.base ∧ r.entity = q.entity
  order : r.order = q.order
  window : r.limit = q.limit ∧ r.offset = q.offset
  required : c.combine = .and → ∀ s : Reading, demand s.judge r.conjuncts =
    (demand s.judge q.conjuncts).and (c.operator.meaning s x c.term)
  excluded : c.combine = .andNot → ∀ s : Reading, demand s.judge r.conjuncts =
    (demand s.judge q.conjuncts).and (c.operator.meaning s x c.term).not
  alternative : c.combine = .or → ∀ earlier last later,
    q.conjuncts = earlier ++ last :: later → last.tag = some c.tag →
    (∀ y ∈ later, y.tag ≠ some c.tag) → ∀ s : Reading, demand s.judge r.conjuncts =
      (demand s.judge earlier).and
        (((last.condition.restriction s.judge).or (c.operator.meaning s x c.term)).and
          (demand s.judge later))
  unmatched : c.combine = .or → (∀ y ∈ q.conjuncts, y.tag ≠ some c.tag) →
    ∀ s : Reading, demand s.judge r.conjuncts =
      (demand s.judge q.conjuncts).and (c.operator.meaning s x c.term)
  clause : q.Sound → ∀ (s : Reading) t,
    (q.WhereIs s.judge t ↔ demand s.judge q.conjuncts = t) ∧
      (r.WhereIs s.judge t ↔ demand s.judge r.conjuncts = t)

/-- **Criteria mean what they say.** A criterion with a term that fits (`Criterion.check`) and is
not blank, on a field that stands for a column where its path leads (`Query.follow`), is accepted by
`Query.search`, and does to the query what operator and combination say (`Query.Searched`). -/
theorem search_means (q : Query) (hnonempty : ∀ y ∈ q.conjuncts, y.condition.isEmpty = false)
    {c : Criterion} {x : Operand} (hblank : c.term.isBlank = false) (hcheck : c.check = .ok ())
    (hfield : (q.follow c.path).1.operand (q.follow c.path).2 c.field = .ok x) :
    ∃ r, q.search c = .ok r ∧ q.Searched c x r := by
  obtain ⟨condition, hcondition, hwritten, hmeaning⟩ :=
    SearchOperator.condition_means x (Criterion.fits_of_check hblank hcheck)
  have hsearch := search_of_condition hblank hcheck hfield hcondition
  have hconjuncts := q.conjuncts_follow_attach c.path ⟨c.tag, c.combine, condition⟩
  obtain ⟨r, hr⟩ : ∃ r, (q.follow c.path).1.attach c.tag c.combine condition = r := ⟨_, rfl⟩
  rw [hr] at hsearch hconjuncts
  obtain ⟨joins, conjuncts, fault, hframe⟩ := search_frame hsearch
  refine ⟨r, hsearch, ?_⟩
  -- joins come of the path alone, what is demanded of the attachment alone
  constructor
  case joins =>
    obtain ⟨conjuncts, hattach⟩ := attach_frame (q.follow c.path).1 c.tag c.combine condition
    rw [← joins_followFrom, ← hr, hattach]
    rfl
  case steps => exact steps_madeAlong q q.base c.path
  case owners => exact owners_madeAlong q q.base c.path
  case entity => exact hframe ▸ ⟨rfl, rfl, rfl⟩
  case order => exact hframe ▸ rfl
  case window => exact hframe ▸ ⟨rfl, rfl⟩
  case required =>
    intro hcombine s
    rw [hconjuncts, hcombine, ← hmeaning, ← demand_singleton ⟨some c.tag, condition⟩,
      ← demand_append]
    rfl
  case excluded =>
    intro hcombine s
    rw [hconjuncts, hcombine, ← hmeaning, ← Condition.restriction_not hwritten,
      ← demand_singleton ⟨some c.tag, .not condition⟩, ← demand_append]
    rfl
  case alternative =>
    intro hcombine earlier last later hsplit htag hlater s
    have hlast : last ∈ q.conjuncts := hsplit ▸ List.mem_append_right _ List.mem_cons_self
    rw [hconjuncts, hcombine, hsplit, ← hmeaning,
      demand_orLast (hnonempty last hlast) hwritten htag hlater]
  case unmatched =>
    intro hcombine hnone s
    rw [hconjuncts, hcombine, ← hmeaning, demand_on_unmatched hnone]
  case clause =>
    intro hq s t
    have hjoined := joined_followFrom q hq.base c.path
    have hsound : r.Sound := hr ▸ (hq.joined hjoined).attach c.tag c.combine
      (SearchOperator.condition_resolved (operand_resolved hjoined.source hfield) hcondition)
    exact ⟨whereIs_iff hq, whereIs_iff hsound⟩

/-- Parts at a price, or else in a range of prices. -/
def partsPriced (operator : SearchOperator) (combine : Combine) (term : Term) : Criterion :=
  ⟨.column "price", [⟨.inner, "parts"⟩], operator, term, combine⟩

/-- The column of a price. -/
def priceOf (source : Sql.Alias) : Operand := .column source (.bare "price")

/-- A range goes as an alternative into the condition on the same field, and its bounds belong
together there, though they are about another joined table. -/
theorem search_means_alternative :
    ∃ q r : Query, q.search (partsPriced .between .or (.list [.int 1, .int 9])) = .ok r ∧
      q.selectSql = "SELECT p0.* FROM products AS p0 " ++
        "INNER JOIN parts AS p1 ON p1.product_id = p0.id WHERE p1.price = $1" ∧
      r.selectSql = "SELECT p0.* FROM products AS p0 " ++
        "INNER JOIN parts AS p1 ON p1.product_id = p0.id " ++
        "INNER JOIN parts AS p2 ON p2.product_id = p0.id " ++
        "WHERE p1.price = $1 OR (p2.price >= $2 AND p2.price <= $3)" ∧
      ∀ (s : Reading) t, r.WhereIs s.judge t ↔
        (s.compare (priceOf ⟨'p', 1⟩) .eq (.int 5)).or
          ((s.compare (priceOf ⟨'p', 2⟩) .gteq (.int 1)).and
            (s.compare (priceOf ⟨'p', 2⟩) .lteq (.int 9))) = t := by
  obtain ⟨start, hstart⟩ : ∃ start, ofEntity assembly "product" = .ok start := ⟨_, rfl⟩
  have hsound := sound_ofEntity hstart
  have hjoined := joined_followFrom start hsound.base [⟨.inner, "parts"⟩]
  cases hstart
  have hprice : (priceOf ⟨'p', 1⟩).Resolved := ⟨hjoined.source, "price", rfl⟩
  -- a query that has been searched for parts at one price
  have hq := (hsound.joined hjoined).attach "inner:parts/price" .and
    (Condition.resolved_compare hprice .eq (.int 5))
  have hmeans {q : Query} (_ : q.Sound) := search_means q
    (c := partsPriced .between .or (.list [.int 1, .int 9])) (x := priceOf ⟨'p', 2⟩)
  obtain ⟨r, hr, hsearched⟩ := hmeans hq (List.forall_mem_singleton.mpr rfl) rfl rfl rfl
  refine ⟨_, r, hr, by decide +kernel, ?_, ?_⟩
  · cases hr
    decide +kernel
  · intro s t
    rw [(hsearched.clause hq s t).2,
      hsearched.alternative rfl [] _ [] rfl (by decide +kernel) nofun s]
    simp only [demand, List.map_nil, Truth.conj_nil, Truth.yes_and, Truth.and_yes]
    rfl

end Query

end Listing
