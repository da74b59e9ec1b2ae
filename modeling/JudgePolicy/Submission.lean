/-
Submissions, and what a user's submissions to a problem amount to.

A `History` is the summary the voting rules need: the best accepted points, and
whether some accepted submission had exactly the problem's points.
-/
import JudgePolicy.Problem
import JudgePolicy.Verdict
namespace JudgePolicy

/-- A judged submission. -/
structure Submission where
  profile : ProfileId
  problem : ProblemId
  verdict : Verdict
  points : Binary64
  language : String
  deriving DecidableEq

/-- A user's record on a problem. -/
structure History where
  /-- The highest points of accepted submissions. -/
  best : Option Binary64
  hasFullScore : Bool
  deriving DecidableEq

namespace Submission

/-- Whether a submission is accepted, and by this user to this problem. -/
def countsFor (s : Submission) (profile : ProfileId) (problem : Problem) : Bool :=
  s.profile == profile && s.problem == problem.id && s.verdict.isAccepted

end Submission

namespace History

/-- No accepted submission. -/
def unsolved : History := ⟨none, false⟩

/-- Accepted, but never with the problem's points. -/
def partialCredit (best : Binary64) : History := ⟨some best, false⟩

/-- Accepted with the problem's points; `best` may be higher. -/
def fullScore (best : Binary64) : History := ⟨some best, true⟩

def hasAccepted (h : History) : Bool := h.best.isSome

/-- The record with one more accepted submission. -/
def extend (problem : Problem) (h : History) (points : Binary64) : History :=
  ⟨some (match h.best with
      | none => points
      | some best => best.larger points),
    h.hasFullScore || points.equals problem.points⟩

/-- The record that a list of submissions amounts to. -/
def ofSubmissions (submissions : List Submission) (profile : ProfileId) (problem : Problem) :
    History :=
  (submissions.filter (·.countsFor profile problem)).foldl
    (fun h s => h.extend problem s.points) unsolved

end History

end JudgePolicy
