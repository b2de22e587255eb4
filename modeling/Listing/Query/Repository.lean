import Listing.Query.Statement

namespace Listing

/-!
# Repositories

What runs queries.  A repository is given in any monad, so that a run can be pure, keep a record of
its calls, or reach a database.

* `Repository` — counts the rows of a query and fetches them;
* `Client` — runs a statement with the terms of its placeholders, for all rows or for the first;
* `Client.repository` — the repository of a client: a query with a fault is refused before anything
  is sent.
-/

/-- A row that a statement gives, cell by cell. -/
abbrev Row := List Term

/-- What counts and fetches the rows of queries. -/
structure Repository (m : Type → Type) where
  count : Query → ExceptT Error m Int64
  all : Query → ExceptT Error m (List Row)

/-- What runs statements.  A client that has no other way to the first row of a statement takes it
from all of them. -/
structure Client (m : Type → Type) [Monad m] where
  run : String → List Term → ExceptT Error m (List Row)
  runFirst : String → List Term → ExceptT Error m (Option Row) :=
    fun sql terms => do return (← run sql terms).head?

variable {m : Type → Type} [Monad m]

/-- An outcome that is reached without running a statement. -/
def liftOutcome {α : Type} (outcome : Except Error α) : ExceptT Error m α :=
  ExceptT.mk (pure outcome)

namespace Client

/-- The number in the first cell of a row, zero if there is no row. -/
def countOf : Option Row → Except Error Int64
  | none => .ok 0
  | some (.int n :: _) => .ok n
  | some _ => .error (.query "count is not an integer")

/-- The repository of a client. -/
def repository (client : Client m) : Repository m where
  count q := do
    -- a query with a fault never reaches the client
    liftOutcome q.validate
    let row ← client.runFirst q.countSql q.terms
    liftOutcome (countOf row)
  all q := do
    liftOutcome q.validate
    client.run q.selectSql q.terms

end Client

end Listing
