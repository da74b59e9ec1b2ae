/-
Conditions on problem rows, in the form in which a database evaluates them.

`Filter.condition` turns a filter into a condition, and `Expression.holds` says
what a condition means on the rows of the tables.

Design notes: a condition carries its negation apart from its body, so that two
negations of a filter cancel before anything is written.
-/
import JudgePolicy.Database.Tables
import JudgePolicy.Filter
namespace JudgePolicy

namespace Database

/-- A column of truth values. -/
inductive Column where
  | isPublic
  | isOrganizationPrivate
  deriving DecidableEq

/-- What is asked of the members of a relation. -/
inductive MemberTest where
  | equals (id : Int32)
  | among (ids : SortedSet Int32)
  deriving DecidableEq

/-- An expression over a problem row. -/
inductive Expression where
  | constant (value : Bool)
  /-- A comparison of numbers, true or false by itself. -/
  | comparison (value : Bool)
  | column (c : Column)
  /-- The row's problem is in the relation with a member that passes the test. -/
  | related (r : Relation) (test : MemberTest)
  | not (e : Expression)
  | and (left right : Expression)
  | or (left right : Expression)
  deriving DecidableEq

/-- Whether a column of a row is true. -/
def Column.holds (row : ProblemRow) : Column → Bool
  | isPublic => row.isPublic
  | isOrganizationPrivate => row.isOrganizationPrivate

/-- Whether a member passes a test. -/
def MemberTest.holds (m : Int32) : MemberTest → Bool
  | equals id => m == id
  | among ids => decide (m ∈ ids)

namespace Expression

/-- What an expression says of a row. -/
def holds (t : Tables) (row : ProblemRow) : Expression → Bool
  | constant b => b
  | comparison b => b
  | column c => c.holds row
  | related r test =>
    ((t.relation r).filter (fun m => test.holds m.member)).any (·.problem == row.id)
  | not e => !holds t row e
  | and l r => holds t row l && holds t row r
  | or l r => holds t row l || holds t row r

/-- All of some expressions, joined from the left; of none, true. -/
def conjunction : List Expression → Expression
  | [] => constant true
  | e :: rest => rest.foldl and e

/-- One of some expressions, joined from the left; of none, false. -/
def disjunction : List Expression → Expression
  | [] => constant false
  | e :: rest => rest.foldl or e

theorem holds_foldl_and (t : Tables) (row : ProblemRow) (e : Expression)
    (rest : List Expression) :
    (rest.foldl and e).holds t row = (e.holds t row && rest.all (holds t row)) := by
  induction rest generalizing e with
  | nil => simp
  | cons f rest ih => simp [ih, holds, Bool.and_assoc]

theorem holds_foldl_or (t : Tables) (row : ProblemRow) (e : Expression)
    (rest : List Expression) :
    (rest.foldl or e).holds t row = (e.holds t row || rest.any (holds t row)) := by
  induction rest generalizing e with
  | nil => simp
  | cons f rest ih => simp [ih, holds, Bool.or_assoc]

@[simp] theorem holds_conjunction (t : Tables) (row : ProblemRow) (parts : List Expression) :
    (conjunction parts).holds t row = parts.all (holds t row) := by
  cases parts with
  | nil => rfl
  | cons e rest => simp [conjunction, holds_foldl_and]

@[simp] theorem holds_disjunction (t : Tables) (row : ProblemRow) (parts : List Expression) :
    (disjunction parts).holds t row = parts.any (holds t row) := by
  cases parts with
  | nil => rfl
  | cons e rest => simp [disjunction, holds_foldl_or]

end Expression

/-- An expression that may be negated as a whole. -/
structure Condition where
  negated : Bool
  body : Expression
  deriving DecidableEq

namespace Condition

def plain (e : Expression) : Condition := ⟨false, e⟩

def toggled (c : Condition) : Condition := ⟨!c.negated, c.body⟩

/-- A condition as an expression. -/
def expression (c : Condition) : Expression := if c.negated then .not c.body else c.body

@[simp] theorem holds_expression_plain (t : Tables) (row : ProblemRow) (e : Expression) :
    (plain e).expression.holds t row = e.holds t row := rfl

@[simp] theorem holds_expression_toggled (t : Tables) (row : ProblemRow) (c : Condition) :
    c.toggled.expression.holds t row = !c.expression.holds t row := by
  cases h : c.negated <;> simp [toggled, expression, h, Expression.holds]

end Condition

end Database

namespace Filter

open Database

mutual

/-- The condition on problem rows that a filter stands for. -/
def condition : Filter → Condition
  | always => .plain (.comparison true)
  | never => .plain (.comparison false)
  | isPublic => .plain (.column .isPublic)
  | isOrganizationPrivate => .plain (.column .isOrganizationPrivate)
  | authoredBy id => .plain (.related .authors (.equals id))
  | curatedBy id => .plain (.related .curators (.equals id))
  | testedBy id => .plain (.related .testers (.equals id))
  | inOrganizations ids => .plain (.related .organizations (.among ids))
  | not part => (condition part).toggled
  | all parts => .plain (.conjunction (conditionParts parts))
  | any parts => .plain (.disjunction (conditionParts parts))

def conditionParts : List Filter → List Expression
  | [] => []
  | f :: rest => (condition f).expression :: conditionParts rest

end

end Filter

namespace Tables

/-- The rows that a condition selects, in ascending order of their codes. -/
def select (t : Tables) (c : Database.Condition) : List ProblemRow :=
  byCode (t.problems.filter (c.expression.holds t))

end Tables

end JudgePolicy
