/-
Voting on the quality of problems.

The reasons are tried in a fixed order, and the first that applies decides:
anonymous viewers, a running contest and a problem not solved give no right;
bans, unlisted profiles and partial credit leave the right to look; everyone
else may vote.  The reason alone fixes the permission.
-/
import JudgePolicy.Submission
namespace JudgePolicy

namespace Voting

/-- What a viewer may do with the votes on a problem. -/
inductive Permission where
  | none
  | view
  | vote
  deriving DecidableEq

namespace Permission

/-- All permissions, in ascending order. -/
def all : List Permission := [none, view, vote]

/-- Permissions are ordered by how much they allow. -/
instance : Ord Permission := ⟨compareOn (all.idxOf ·)⟩

instance : LE Permission := ⟨fun a b => all.idxOf a ≤ all.idxOf b⟩

instance (a b : Permission) : Decidable (a ≤ b) :=
  inferInstanceAs (Decidable (all.idxOf a ≤ all.idxOf b))

def name : Permission → String
  | none => "none"
  | view => "view"
  | vote => "vote"

def title : Permission → String
  | none => "None"
  | view => "View"
  | vote => "Vote"

def ofName? (s : String) : Option Permission := all.find? (·.name == s)

/-- Whether votes may be looked at. -/
def canView : Permission → Bool
  | none => false
  | view | vote => true

/-- Whether a vote may be cast. -/
def canVote : Permission → Bool
  | none | view => false
  | vote => true

end Permission

/-- Why a viewer may do what it may. -/
inductive Reason where
  | anonymous
  | inLiveContest
  | unsolved
  | bannedGlobally
  | unlisted
  | bannedFromProblem
  | partialCredit
  | eligible
  deriving DecidableEq

namespace Reason

/-- All reasons, in the order in which they are tried. -/
def all : List Reason :=
  [anonymous, inLiveContest, unsolved, bannedGlobally, unlisted, bannedFromProblem,
    partialCredit, eligible]

def name : Reason → String
  | anonymous => "anonymous"
  | inLiveContest => "in_live_contest"
  | unsolved => "unsolved"
  | bannedGlobally => "banned_globally"
  | unlisted => "unlisted"
  | bannedFromProblem => "banned_from_problem"
  | partialCredit => "partial_credit"
  | eligible => "eligible"

def title : Reason → String
  | anonymous => "Anonymous"
  | inLiveContest => "InLiveContest"
  | unsolved => "Unsolved"
  | bannedGlobally => "BannedGlobally"
  | unlisted => "Unlisted"
  | bannedFromProblem => "BannedFromProblem"
  | partialCredit => "PartialCredit"
  | eligible => "Eligible"

def ofName? (s : String) : Option Reason := all.find? (·.name == s)

/-- What a reason leaves. -/
def permission : Reason → Permission
  | anonymous | inLiveContest | unsolved => .none
  | bannedGlobally | unlisted | bannedFromProblem | partialCredit => .view
  | eligible => .vote

end Reason

/-- A permission and the reason behind it. -/
structure Decision where
  permission : Permission
  reason : Reason
  deriving DecidableEq

/-- The decision for a reason. -/
def Reason.decision (r : Reason) : Decision := ⟨r.permission, r⟩

/-- The first reason that applies to a profile. -/
def reasonFor (p : Profile) (problem : Problem) (h : History) (now : Instant) : Reason :=
  if p.participation.any (·.isLiveAt now) then .inLiveContest
  else if !h.hasAccepted then .unsolved
  else if p.isBannedFromVoting then .bannedGlobally
  else if p.isUnlisted then .unlisted
  else if p.id ∈ problem.bannedUsers then .bannedFromProblem
  else if !h.hasFullScore then .partialCredit
  else .eligible

end Voting

/-- What a viewer may do with the votes on a problem, and why. -/
def Viewer.votingOn (v : Viewer) (problem : Problem) (h : History) (now : Instant) :
    Voting.Decision :=
  match v with
  | .anonymous => Voting.Reason.anonymous.decision
  | .authenticated p => (Voting.reasonFor p problem h now).decision

end JudgePolicy
