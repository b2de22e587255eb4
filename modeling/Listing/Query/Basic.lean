import Listing.Entity.Registry
import Listing.Sql.Condition

namespace Listing

/-!
# Queries

A selection of the rows of one entity: joins along associations, conditions, an ordering and a
window.  Each operation gives a new query; what is already in a query is never lost.

* `Query` — the selection, with the registry in which it looks entities up;
* `Query.join` — a join along an association; one that cannot be made is noted as the query's fault
  and everything after it still goes on;
* `Query.attach` — a condition of a search, joined to the others as its combination says;
* `Query.validate` — no join failed;
* `Query.same` — equality of queries over one registry.
-/

/-- A row source of a query: the base entity or the target of a join. -/
structure Binding where
  source : Sql.Alias
  entity : String
  deriving DecidableEq, Repr

/-- The condition of a join: a key of the joined table equals a key of an earlier source. -/
structure JoinOn where
  relatedKey : String
  owner : Sql.Alias
  ownerKey : String
  deriving DecidableEq, Repr

/-- A join of a table under an alias. -/
structure Join where
  kind : JoinKind
  table : String
  source : Sql.Alias
  on : Option JoinOn
  deriving DecidableEq, Repr

/-- A condition of a query, tagged with the searched field if a search gave it. -/
structure Conjunct where
  tag : Option String
  condition : Sql.Condition

/-- One key of a query's ordering. -/
structure OrderItem where
  operand : Sql.Operand
  direction : Direction
  deriving DecidableEq, Repr

/-- A selection of the rows of one entity. -/
structure Query where
  registry : Registry
  base : Binding
  entity : Entity
  joins : List Join
  conjuncts : List Conjunct
  order : List OrderItem
  limit : Option Int64
  offset : Option Int64
  fault : Option JoinFault

namespace Query

/-- The rows of an entity. -/
def ofEntity (registry : Registry) (name : String) : Except Error Query :=
  match registry.get? name with
  | some entity =>
    .ok { registry, base := ⟨.ofTable entity.table 0, name⟩, entity, joins := [], conjuncts := [],
          order := [], limit := none, offset := none, fault := none }
  | none => .error (.validation (.unknownEntity name))

/-- The entity of a row source. -/
def entityOf (q : Query) (b : Binding) : Option Entity := q.registry.get? b.entity

/-! ### Joins -/

/-- Notes a failed join, unless one failed before. -/
def note (q : Query) (fault : JoinFault) : Query :=
  { q with fault := q.fault <|> some fault }

/-- Adds a join of a table, and the row source it makes. -/
def addJoin (q : Query) (kind : JoinKind) (table entity : String) (on : Option JoinOn) :
    Query × Binding :=
  let source := Sql.Alias.ofTable table (q.joins.length + 1)
  ({ q with joins := q.joins ++ [⟨kind, table, source, on⟩] }, ⟨source, entity⟩)

/-- The table that stands for a relation that is not known. -/
def tableOfUnknown (relation : String) : String :=
  match Ident.parse relation with
  | .ok ident => ident.text
  | .error _ => "invalid"

/-- Joins along an association of a row source, and gives the row source of its target. -/
def join (q : Query) (kind : JoinKind) (owner : Binding) (relation : String) : Query × Binding :=
  match (q.entityOf owner).bind fun entity => entity.association? relation with
  | none =>
    -- the join is added all the same, so that later sources keep their places
    (q.note (.unknownRelation relation owner.entity)).addJoin kind (tableOfUnknown relation)
      relation none
  | some a =>
    match q.registry.get? a.target with
    | none =>
      (q.note (.unknownTarget relation owner.entity a.target)).addJoin kind relation a.target none
    | some target =>
      let on := if kind = .cross then none else some ⟨a.relatedKey, owner.source, a.ownerKey⟩
      q.addJoin kind target.table a.target on

/-- Joins along one step of a path from the row source reached so far. -/
def step (reached : Query × Binding) (s : JoinStep) : Query × Binding :=
  reached.1.join s.kind reached.2 s.relation

/-- Joins along a path, each step from the target of the one before. -/
def followFrom (q : Query) (start : Binding) (path : JoinPath) : Query × Binding :=
  path.foldl step (q, start)

/-- Joins along a path from the base entity. -/
def follow (q : Query) (path : JoinPath) : Query × Binding := q.followFrom q.base path

/-! ### Conditions -/

/-- Adds a condition that has to hold as well. -/
def also (q : Query) (c : Sql.Condition) : Query :=
  { q with conjuncts := q.conjuncts ++ [⟨none, c⟩] }

/-- The conditions of some conjuncts as one; a single one stays as it is. -/
def merged : List Conjunct → Sql.Condition
  | [only] => only.condition
  | conjuncts => .all (conjuncts.map Conjunct.condition)

/-- Lets a condition hold instead of all those before it. -/
def orElse (q : Query) (c : Sql.Condition) : Query :=
  if q.conjuncts.isEmpty then q.also c
  else
    -- one disjunction takes the place of all conjuncts, and their tags go with them
    { q with conjuncts := [⟨none, (merged q.conjuncts).orElse c⟩] }

/-- Adds a condition that must not hold. -/
def butNot (q : Query) (c : Sql.Condition) : Query := q.also (.not c)

/-- Lets a condition hold instead of the last one of a tag, if there is one. -/
def orLast (tag : String) (c : Sql.Condition) : List Conjunct → Option (List Conjunct)
  | [] => none
  | conjunct :: rest =>
    -- a later conjunct of the tag goes before this one
    match orLast tag c rest with
    | some changed => some (conjunct :: changed)
    | none =>
      if conjunct.tag = some tag then some (⟨conjunct.tag, conjunct.condition.orElse c⟩ :: rest)
      else none

/-- Adds a condition under a tag. -/
def tagged (q : Query) (tag : String) (c : Sql.Condition) : Query :=
  { q with conjuncts := q.conjuncts ++ [⟨some tag, c⟩] }

/--
Adds the condition of a search under the tag of its field: as a condition, as one that must not
hold, or as an alternative to the last condition of the same tag.
-/
def attach (q : Query) (tag : String) (combine : Combine) (c : Sql.Condition) : Query :=
  match combine with
  | .and => q.tagged tag c
  | .andNot => q.tagged tag (.not c)
  | .or =>
    match orLast tag c q.conjuncts with
    | some conjuncts => { q with conjuncts }
    | none => q.tagged tag c

/-! ### Ordering and window -/

/-- Adds a key after the keys of the ordering. -/
def orderBy (q : Query) (operand : Sql.Operand) (direction : Direction) : Query :=
  { q with order := q.order ++ [⟨operand, direction⟩] }

/-- The query with at most so many rows. -/
def withLimit (q : Query) (n : Int64) : Query := { q with limit := some n }

/-- The query without so many rows at the start. -/
def withOffset (q : Query) (n : Int64) : Query := { q with offset := some n }

/-! ### Validity and equality -/

/-- No join failed. -/
def validate (q : Query) : Except Error Unit :=
  match q.fault with
  | some fault => .error (.validation (.join fault))
  | none => .ok ()

end Query

namespace Sql.Condition

mutual

/-- Equality of conditions; the terms are compared by value. -/
def same : Condition → Condition → Bool
  | all xs, all ys => sameParts xs ys
  | any xs, any ys => sameParts xs ys
  | not x, not y => same x y
  | compare lhs comparison value, compare lhs' comparison' value' =>
    lhs == lhs' && comparison == comparison' && value.same value'
  | nullness lhs expected, nullness lhs' expected' => lhs == lhs' && expected == expected'
  | inList lhs values negated, inList lhs' values' negated' =>
    lhs == lhs' && Term.sameItems values values' && negated == negated'
  | constant b, constant b' => b == b'
  | _, _ => false

/-- Equality of lists of conditions, part by part. -/
def sameParts : List Condition → List Condition → Bool
  | [], [] => true
  | x :: xs, y :: ys => same x y && sameParts xs ys
  | _, _ => false

end

end Sql.Condition

namespace Query

/-- Equality of lists of conjuncts: same tags and same conditions. -/
def sameConjuncts : List Conjunct → List Conjunct → Bool
  | [], [] => true
  | x :: xs, y :: ys => x.tag == y.tag && x.condition.same y.condition && sameConjuncts xs ys
  | _, _ => false

/-- Equality of queries over one registry; faults that read alike count as one. -/
def same (q r : Query) : Bool :=
  q.base == r.base && q.joins == r.joins && sameConjuncts q.conjuncts r.conjuncts &&
    q.order == r.order && q.limit == r.limit && q.offset == r.offset &&
    q.fault.map JoinFault.message == r.fault.map JoinFault.message

end Query

end Listing
