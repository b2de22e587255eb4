import Listing.Proofs.Query.History

namespace Listing

/-!
# Failed joins

A join that cannot be made does not stop the making of a query.  It is noted, and the first note
stays whatever comes after it: the query is never valid again, and no statement of it is sent.

* `Query.validate_eq_ok_iff` — a query is valid if no fault is noted;
* `Client.noting` — a client that also notes the statements it is sent;
* `Client.count_of_fault`, `Client.all_of_fault` — what a repository does with a faulty query, and
  `Client.noting_all_of_valid` with a valid one;
* `Query.first_failed_join_decides` — validity and execution of a query, by its history.
-/

namespace Query

variable {q : Query}

/-- A query is valid exactly if it has noted no fault. -/
theorem validate_eq_ok_iff : q.validate = .ok () ↔ q.fault = none := by
  unfold validate
  cases q.fault with
  | none => simp
  | some fault => simp

/-- A noted fault is given as an error. -/
theorem validate_of_fault {fault : JoinFault} (h : q.fault = some fault) :
    q.validate = .error (.validation (.join fault)) := by rw [validate, h]

end Query

/-! ### What a client is sent -/

/-- A statement as it is sent: its text, and the terms of its placeholders. -/
abbrev Sent := String × List Term

namespace Client

variable {m : Type → Type} [Monad m] {q : Query} {e : Error}

/-- The client that also notes each statement that it is sent. -/
def noting (client : Client m) : Client (StateT (List Sent) m) where
  run sql terms := ExceptT.mk fun sent => do
    let outcome ← (client.run sql terms).run
    return (outcome, sent ++ [(sql, terms)])
  runFirst sql terms := ExceptT.mk fun sent => do
    let outcome ← (client.runFirst sql terms).run
    return (outcome, sent ++ [(sql, terms)])

variable [LawfulMonad m]

/-- A faulty query is not counted: the run is over before the client has any part in it. -/
theorem count_of_fault (client : Client m) (h : q.validate = .error e) :
    client.repository.count q = throw e := by
  show liftOutcome q.validate >>= _ = _
  rw [h]
  exact liftOutcome_error_bind e _

/-- The rows of a faulty query are not fetched. -/
theorem all_of_fault (client : Client m) (h : q.validate = .error e) :
    client.repository.all q = throw e := by
  show liftOutcome q.validate >>= _ = _
  rw [h]
  exact liftOutcome_error_bind e _

/-- The rows of a valid query are fetched by one statement, which is noted. -/
theorem noting_all_of_valid (client : Client m) (h : q.validate = .ok ()) (sent : List Sent) :
    (client.noting.repository.all q).run sent = do
      let outcome ← (client.run q.selectSql q.terms).run
      return (outcome, sent ++ [(q.selectSql, q.terms)]) := by
  have hrun : client.noting.repository.all q = client.noting.run q.selectSql q.terms := by
    show liftOutcome q.validate >>= _ = _
    rw [h]
    exact liftOutcome_ok_bind () _
  rw [hrun]
  rfl

end Client

/-! ### Validity by history -/

namespace Query

/-- A query that is made of an entity is valid if and only if every join that its history asked for
can be made. -/
theorem validate_eq_ok_iff_joinable {registry : Registry} {name : String} {edits : List Edit}
    {start q : Query} (hstart : ofEntity registry name = .ok start)
    (hedits : start.editAll edits = .ok q) : q.validate = .ok () ↔
      ∀ j ∈ edits.flatMap (Edit.requests registry name), registry.Joinable j := by
  obtain ⟨-, -, hfault⟩ := history_ok hstart hedits
  rw [validate_eq_ok_iff, hfault, List.findSome?_eq_none_iff]
  exact forall₂_congr fun j _ => Registry.faultOf_eq_none_iff

/-- **The first failed join decides.** A query that is made of an entity (`Query.editAll`) is valid
if and only if every join of its history (`Edit.requests`) goes along an association of its entity
to a registered one (`Registry.Joinable`).  Otherwise `Query.validate` fails with the fault of the
first join that does not, whatever comes after it, and every client's repository answers with that
fault and sends no statement. -/
theorem first_failed_join_decides {registry : Registry} {name : String} {edits : List Edit}
    {start q : Query} (hstart : ofEntity registry name = .ok start)
    (hedits : start.editAll edits = .ok q) :
    q.joins.length = (edits.flatMap (Edit.requests registry name)).length ∧
    (q.validate = .ok () ↔
      ∀ j ∈ edits.flatMap (Edit.requests registry name), registry.Joinable j) ∧
    ∀ before j after, edits.flatMap (Edit.requests registry name) = before ++ j :: after →
      (∀ earlier ∈ before, registry.Joinable earlier) → ¬ registry.Joinable j →
      ∃ fault, registry.faultOf j = some fault ∧
        q.validate = .error (.validation (.join fault)) ∧
        ∀ (m : Type → Type) [Monad m] [LawfulMonad m] (client : Client m),
          client.repository.count q = throw (.validation (.join fault)) ∧
          client.repository.all q = throw (.validation (.join fault)) ∧
          ∀ sent : List Sent,
            (client.noting.repository.count q).run sent =
              pure (.error (.validation (.join fault)), sent) ∧
            (client.noting.repository.all q).run sent =
              pure (.error (.validation (.join fault)), sent) := by
  obtain ⟨-, htables, hfault⟩ := history_ok hstart hedits
  refine ⟨?_, validate_eq_ok_iff_joinable hstart hedits, ?_⟩
  · simpa using congrArg List.length htables
  · intro before j after hsplit hbefore hj
    -- the joins before it have no fault to note, so its own is the first
    have hnone : before.findSome? registry.faultOf = none :=
      List.findSome?_eq_none_iff.mpr fun earlier hearlier =>
        Registry.faultOf_eq_none_iff.mpr (hbefore earlier hearlier)
    obtain ⟨fault, hown⟩ : ∃ fault, registry.faultOf j = some fault := by
      rw [← Option.ne_none_iff_exists']
      exact fun hnofault => hj (Registry.faultOf_eq_none_iff.mp hnofault)
    have hfirst : q.fault = some fault := by
      rw [hfault, hsplit, List.findSome?_append, hnone, Option.none_or, List.findSome?_cons, hown]
    have hvalidate := validate_of_fault hfirst
    refine ⟨fault, hown, hvalidate, ?_⟩
    intro m _ _ client
    refine ⟨client.count_of_fault hvalidate, client.all_of_fault hvalidate, ?_⟩
    intro sent
    rw [client.noting.count_of_fault hvalidate, client.noting.all_of_fault hvalidate]
    exact ⟨rfl, rfl⟩

/-- The reviews may be registered. -/
theorem validate_reviews : (Entity.empty "review" "reviews").validate = .ok () := rfl

/-- Products have reviews, and makers that no entity is registered for. -/
def catalogue : Registry :=
  (Registry.empty.insert (.empty "review" "reviews") validate_reviews).insert
    ((((Entity.empty "product" "products").withPrimaryKey "id").hasMany "reviews" "review"
      "product_id").belongsTo "maker" "company" "maker_id") rfl

/-- Good reviews are searched, then the maker is joined and, from there, its owner; after these come
one more join of the reviews, a condition and a window. -/
def makersOwner : List Edit :=
  [.run .search (Builtin.search.encode
      [("rating", ⟨.column "rating", [⟨.inner, "reviews"⟩], .gteq, .int 4, .and⟩)]),
    .join .inner ⟨⟨'p', 0⟩, "product"⟩ "maker", .join .left ⟨⟨'m', 2⟩, "company"⟩ "owner",
    .join .left ⟨⟨'p', 0⟩, "product"⟩ "reviews", .orElse (.constant true), .withLimit 5]

/-- The fault is that of the maker, though the owner fails as well and the last join does not. -/
theorem first_failed_join_decides_maker :
    ∃ start q, ofEntity catalogue "product" = .ok start ∧ start.editAll makersOwner = .ok q ∧
      q.joins.length = 4 ∧
      q.validate = .error (.validation (.join (.unknownTarget "maker" "product" "company"))) ∧
      ∀ client : Client Id, client.repository.count q =
        throw (.validation (.join (.unknownTarget "maker" "product" "company"))) := by
  obtain ⟨start, q, hstart, hedits⟩ : ∃ start q, ofEntity catalogue "product" = .ok start ∧
      start.editAll makersOwner = .ok q := ⟨_, _, rfl, rfl⟩
  obtain ⟨hlength, -, hfirst⟩ := first_failed_join_decides hstart hedits
  -- the first relation can be joined, and the second one leads nowhere
  have hsplit : makersOwner.flatMap (Edit.requests catalogue "product") =
      [⟨"product", "reviews"⟩] ++ ⟨"product", "maker"⟩ ::
        [⟨"company", "owner"⟩, ⟨"product", "reviews"⟩] := rfl
  have hreviews : catalogue.Joinable ⟨"product", "reviews"⟩ :=
    Registry.faultOf_eq_none_iff.mp rfl
  have hmaker : ¬ catalogue.Joinable ⟨"product", "maker"⟩ :=
    fun h => nomatch Registry.faultOf_eq_none_iff.mpr h
  obtain ⟨fault, hown, hvalidate, hclients⟩ :=
    hfirst _ _ _ hsplit (List.forall_mem_singleton.mpr hreviews) hmaker
  have hfault : fault = .unknownTarget "maker" "product" "company" :=
    Option.some.inj (hown.symm.trans rfl)
  rw [hfault] at hvalidate hclients
  exact ⟨start, q, hstart, hedits, hlength.trans rfl, hvalidate,
    fun client => (hclients Id client).1⟩

end Query

end Listing
