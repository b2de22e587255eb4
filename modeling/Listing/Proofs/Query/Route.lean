import Listing.Proofs.Query.Joins

namespace Listing

/-!
# Where a path leads to

Which joins a path adds to a query, and at which row source it ends, can be told from the registry,
the row source it starts from, and the number of joins that are there already.  What those joins are
makes no difference, so a path leads from the base to its own joins, whatever was joined before.

* `Registry.route`, `Registry.arrival` — the joins that a path makes, and the row source it ends at;
* `Query.madeAlong_eq_route` — the joins made along a path are those of its route;
* `Query.followFrom_eq` — all that following a path does to a query.
-/

namespace Registry

variable (registry : Registry)

/-- The join along a step from a row source, if `n` joins have been made before. -/
def nextJoin (n : Nat) (owner : Binding) (s : JoinStep) : JoinMade where
  kind := s.kind
  owner := owner
  relation := s.relation
  target :=
    { source := .ofTable (registry.tableOf ⟨owner.entity, s.relation⟩) (n + 1)
      entity := registry.reached ⟨owner.entity, s.relation⟩ }

/-- The joins along a path from a row source, if `n` joins have been made before: each step goes on
from the target of the one before. -/
def route : Nat → Binding → JoinPath → List JoinMade
  | _, _, [] => []
  | n, start, s :: rest =>
    registry.nextJoin n start s :: route (n + 1) (registry.nextJoin n start s).target rest

/-- The row source that a path ends at: the target of its last join, or the start if it has none. -/
def arrival (n : Nat) (start : Binding) (path : JoinPath) : Binding :=
  ((registry.route n start path).map JoinMade.target).getLast?.getD start

/-- A route has a place for each step of the path. -/
@[simp] theorem length_route (n : Nat) (start : Binding) (path : JoinPath) :
    (registry.route n start path).length = path.length := by
  induction path generalizing n start with
  | nil => rfl
  | cons s rest ih => rw [route, List.length_cons, ih, List.length_cons]

end Registry

namespace Query

variable {q r : Query}

/-- A join is made as the next one after those that are there. -/
theorem making_eq_nextJoin (q : Query) (owner : Binding) (s : JoinStep) :
    q.making s.kind owner s.relation = q.registry.nextJoin q.joins.length owner s := by
  have hassociation : (q.entityOf owner).bind (fun entity => entity.association? s.relation) =
      q.registry.association? ⟨owner.entity, s.relation⟩ := rfl
  unfold making Registry.nextJoin
  rw [join, hassociation, Registry.tableOf, Registry.reached]
  cases ha : q.registry.association? ⟨owner.entity, s.relation⟩ with
  | none => rfl
  | some a =>
    simp only
    cases q.registry.get? a.target <;> rfl

/-- The joins made along a path are those of its route. -/
theorem madeAlong_eq_route (q : Query) (start : Binding) (path : JoinPath) :
    q.madeAlong start path = q.registry.route q.joins.length start path := by
  induction path generalizing q start with
  | nil => rfl
  | cons s rest ih =>
    have hmade := making_eq_nextJoin q start s
    have hrest := ih (q.join s.kind start s.relation).1 (q.join s.kind start s.relation).2
    have htarget : (q.join s.kind start s.relation).2 =
        (q.registry.nextJoin q.joins.length start s).target := congrArg JoinMade.target hmade
    rw [(grows_join q s.kind start s.relation).1.registry_eq, joins_join, List.length_append,
      List.length_singleton, htarget] at hrest
    rw [madeAlong, Registry.route, hmade, htarget, hrest]

/-- A path ends at the target of the last join made along it. -/
theorem followFrom_snd (q : Query) (start : Binding) (path : JoinPath) :
    (q.followFrom start path).2 = q.registry.arrival q.joins.length start path := by
  have howners := congrArg List.getLast? (owners_madeAlong q start path)
  rw [List.getLast?_append, List.getLast?_singleton, List.getLast?_cons] at howners
  rw [Registry.arrival, ← madeAlong_eq_route]
  exact Option.some.inj howners

/-- Following a path adds the joins of its route after those that are there, notes the first fault
among them unless there is one already, and changes nothing else. -/
theorem followFrom_eq (q : Query) (start : Binding) (path : JoinPath) :
    q.followFrom start path =
      ({ q with
          joins := q.joins ++
            (q.registry.route q.joins.length start path).map q.registry.joinOf
          fault := q.fault.or
            ((q.registry.along start.entity path).findSome? q.registry.faultOf) },
        q.registry.arrival q.joins.length start path) := by
  obtain ⟨joins, fault, hframe⟩ := followFrom_frame q start path
  have hjoins := joins_followFrom q start path
  have hfault := (grows_followFrom q start path).fault_eq
  rw [hframe, madeAlong_eq_route] at hjoins
  rw [hframe] at hfault
  refine Prod.ext ?_ (followFrom_snd q start path)
  rw [hframe, ← hjoins, ← hfault]

end Query

end Listing
