import Listing.Proofs.Query.Frame
import Listing.Proofs.Sql.Erasure
import Listing.Query.Statement

namespace Listing

/-!
# Queries without their terms

* `Query.erased` — a query in which every term of a condition is replaced by null;
* `Query.selectSql_erased`, `Query.countSql_erased` — its statements do not depend on the terms;
* `Query.erased_attach`, `Query.besideJoins_erased` — nor do the operations on it.
-/

open Sql (Condition)

/-- The conjunct with every term replaced by null. -/
def Conjunct.erased (x : Conjunct) : Conjunct := { x with condition := x.condition.erased }

namespace Query

/-- The query with every term of a condition replaced by null. -/
def erased (q : Query) : Query := { q with conjuncts := q.conjuncts.map Conjunct.erased }

/-! ### Statements -/

/-- Terms are erased in the merged condition as in each of the conditions. -/
theorem merged_erased (conjuncts : List Conjunct) :
    merged (conjuncts.map Conjunct.erased) = (merged conjuncts).erased := by
  have hall (xs : List Conjunct) : Condition.all ((xs.map Conjunct.erased).map Conjunct.condition) =
      (Condition.all (xs.map Conjunct.condition)).erased := by
    rw [Condition.erased, Condition.erasedParts_eq_map, List.map_map, List.map_map]
    rfl
  cases conjuncts with
  | nil => rfl
  | cons x rest =>
    cases rest with
    | nil => rfl
    | cons y rest => exact hall (x :: y :: rest)

/-- The clause of the conditions does not depend on the terms. -/
theorem whereTokens_erased (q : Query) : q.erased.whereTokens = q.whereTokens := by
  have htokens : q.erased.condition.tokens 0 = q.condition.tokens 0 := by
    show (merged (q.conjuncts.map Conjunct.erased)).tokens 0 = _
    rw [merged_erased, Condition.tokens_erased]
    rfl
  rw [whereTokens, whereTokens, htokens]

/-- The statement does not depend on the terms. -/
theorem selectSql_erased (q : Query) : q.erased.selectSql = q.selectSql := by
  rw [selectSql, selectSql, selectTokens, selectTokens, whereTokens_erased]
  rfl

/-- Nor does the one that counts. -/
theorem countSql_erased (q : Query) : q.erased.countSql = q.countSql := by
  rw [countSql, countSql, countTokens, countTokens, whereTokens_erased]
  rfl

/-! ### Operations -/

/-- A further condition is erased with the others. -/
theorem erased_also (q : Query) (c : Condition) : (q.also c).erased = q.erased.also c.erased := by
  rw [erased, also, List.map_append]
  rfl

/-- So is one with a tag. -/
theorem erased_tagged (q : Query) (tag : String) (c : Condition) :
    (q.tagged tag c).erased = q.erased.tagged tag c.erased := by
  rw [erased, tagged, List.map_append]
  rfl

/-- An alternative is put to the same condition, whatever the terms. -/
theorem orLast_erased (tag : String) (c : Condition) (conjuncts : List Conjunct) :
    orLast tag c.erased (conjuncts.map Conjunct.erased) =
      (orLast tag c conjuncts).map (List.map Conjunct.erased) := by
  induction conjuncts with
  | nil => rfl
  | cons x rest ih =>
    rw [List.map_cons, orLast, orLast, ih]
    -- erasing keeps the tags, so the same condition is found
    cases orLast tag c rest with
    | some changed => rfl
    | none =>
      show (if x.tag = some tag then some (⟨x.tag, x.condition.erased.orElse c.erased⟩ ::
        rest.map Conjunct.erased) else none) = Option.map _ (if x.tag = some tag then _ else none)
      split
      · rw [← Condition.erased_orElse]
        rfl
      · rfl

/-- Where the condition of a search is attached does not depend on terms. -/
theorem erased_attach (q : Query) (tag : String) (combine : Combine) (c : Condition) :
    (q.attach tag combine c).erased = q.erased.attach tag combine c.erased := by
  cases combine with
  | and => exact q.erased_tagged tag c
  | andNot => exact q.erased_tagged tag (.not c)
  | or =>
    have hlast : orLast tag c.erased q.erased.conjuncts =
        (orLast tag c q.conjuncts).map (List.map Conjunct.erased) := orLast_erased tag c q.conjuncts
    rw [attach, attach, hlast]
    cases orLast tag c q.conjuncts with
    | some changed => rfl
    | none => exact q.erased_tagged tag c

/-- Joins do not look at conditions, nor at their terms. -/
theorem besideJoins_erased : BesideJoins erased :=
  ⟨fun _ => rfl, fun _ _ => rfl, fun _ _ _ _ _ => rfl⟩

end Query

end Listing
