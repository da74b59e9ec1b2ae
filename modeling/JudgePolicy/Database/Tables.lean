/-
The relational form of problems, of the people around them, and of submissions.

A problem is one row, and each of its people and organizations is one row of a
relation.  Rows of a relation may point at problems that do not exist.

Design notes: a column of numbers keeps one zero, without a sign, so rows are
added through `addProblem` and `addSubmission`.
-/
import JudgePolicy.Submission
namespace JudgePolicy

/-- A row of the problem table; nothing in it has been checked. -/
structure ProblemRow where
  id : ProblemId
  code : String
  name : String
  points : Binary64
  isPublic : Bool
  isOrganizationPrivate : Bool
  deriving DecidableEq

/-- A relation between problems and people or organizations. -/
inductive Relation where
  | authors
  | curators
  | testers
  | organizations
  | bannedUsers
  deriving DecidableEq

structure Membership where
  problem : ProblemId
  member : Int32
  deriving DecidableEq

/-- The rows of all tables, in the order they are read. -/
structure Tables where
  problems : List ProblemRow := []
  authors : List Membership := []
  curators : List Membership := []
  testers : List Membership := []
  organizations : List Membership := []
  bannedUsers : List Membership := []
  submissions : List Submission := []

namespace Tables

def relation (t : Tables) : Relation → List Membership
  | .authors => t.authors
  | .curators => t.curators
  | .testers => t.testers
  | .organizations => t.organizations
  | .bannedUsers => t.bannedUsers

/-- What a relation holds for a problem. -/
def members (t : Tables) (r : Relation) (problem : ProblemId) : List Int32 :=
  ((t.relation r).filter (·.problem == problem)).map (·.member)

theorem mem_members {t : Tables} {r : Relation} {problem : ProblemId} {m : Int32} :
    m ∈ t.members r problem ↔ ⟨problem, m⟩ ∈ t.relation r := by
  simp only [members, List.mem_map, List.mem_filter, beq_iff_eq]
  constructor
  · rintro ⟨⟨p, n⟩, ⟨h, rfl⟩, rfl⟩
    exact h
  · exact fun h => ⟨_, ⟨h, rfl⟩, rfl⟩

/-- The rows that a relation has for a problem with these members. -/
def rowsFor (problem : ProblemId) (members : SortedSet Int32) : List Membership :=
  members.toList.map (⟨problem, ·⟩)

/-- Adds a problem and what it is related to. -/
def addProblem (t : Tables) (row : ProblemRow)
    (authors curators testers : SortedSet ProfileId)
    (organizations : SortedSet OrganizationId) (bannedUsers : SortedSet ProfileId) : Tables :=
  { t with
    problems := t.problems ++ [{ row with points := row.points.withoutZeroSign }]
    authors := t.authors ++ rowsFor row.id authors
    curators := t.curators ++ rowsFor row.id curators
    testers := t.testers ++ rowsFor row.id testers
    organizations := t.organizations ++ rowsFor row.id organizations
    bannedUsers := t.bannedUsers ++ rowsFor row.id bannedUsers }

def addSubmission (t : Tables) (s : Submission) : Tables :=
  { t with submissions := t.submissions ++ [{ s with points := s.points.withoutZeroSign }] }

/-- The problem rows in ascending order of their codes. -/
def byCode (rows : List ProblemRow) : List ProblemRow :=
  rows.mergeSort fun a b => compare a.code b.code != .gt

/-- The draft that a row and its relations stand for. -/
def draft (t : Tables) (row : ProblemRow) : Problem.Draft where
  id := row.id
  code := row.code
  points := row.points
  name := row.name
  isPublic := row.isPublic
  isOrganizationPrivate := row.isOrganizationPrivate
  authors := Roster.addAll ∅ (t.members .authors row.id)
  curators := Roster.addAll ∅ (t.members .curators row.id)
  testers := Roster.addAll ∅ (t.members .testers row.id)
  organizations := SortedSet.ofList (t.members .organizations row.id)
  bannedUsers := SortedSet.ofList (t.members .bannedUsers row.id)

/-- All problems in ascending order of their codes, or the defect of the first
row that is no problem. -/
def loadProblems (t : Tables) : Except Problem.Defect (List Problem) :=
  (byCode t.problems).mapM fun row => (t.draft row).build

/-- The submissions of a profile to a problem that are accepted. -/
def accepted (t : Tables) (profile : ProfileId) (problem : Problem) : List Submission :=
  t.submissions.filter (·.countsFor profile problem)

/-- The largest of some numbers. -/
def largest : List Binary64 → Option Binary64
  | [] => none
  | x :: rest => some (rest.foldl Binary64.larger x)

/-- A profile's record on a problem: the largest accepted points, and whether
any accepted row has the problem's points. -/
def history (t : Tables) (profile : ProfileId) (problem : Problem) : History :=
  let rows := t.accepted profile problem
  let full := rows.filter fun s => s.points.equals problem.points
  ⟨largest (rows.map (·.points)), decide (0 < full.length)⟩

end Tables

end JudgePolicy
