/-
Queries against a database whose tables may never have been made.
-/
import JudgePolicy.Access
import JudgePolicy.Database.Condition
import JudgePolicy.Failure
namespace JudgePolicy

namespace Database

def noSuchTable (table : String) : StoreError :=
  .unavailable ("Query Error: error returned from database: (code: 1) no such table: " ++ table)

/-- A database: its tables, if they exist. -/
structure Connection where
  tables : Option Tables

namespace Connection

/-- The tables, for a query that begins with one of them. -/
def query (c : Connection) (table : String) : Except StoreError Tables :=
  match c.tables with
  | some t => .ok t
  | none => .error (noSuchTable table)

def loadProblems (c : Connection) : Except Failure (List Problem) := do
  let t ← (c.query "problem").mapError Failure.store
  t.loadProblems.mapError Failure.malformed

/-- A profile's record on a problem. -/
def history (c : Connection) (profile : ProfileId) (problem : Problem) :
    Except StoreError History := do
  let t ← c.query "submission"
  return t.history profile problem

/-- The codes of the problems that a filter's condition selects, ascending. -/
def select (c : Connection) (f : Filter) : Except StoreError (List String) := do
  let t ← c.query "problem"
  return (t.select f.condition).map (·.code)

end Connection

end Database

end JudgePolicy
