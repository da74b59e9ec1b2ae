/-
The voting law, from submissions to the decision.

Each reason has a condition of its own (`Reason.Applies`), which says nothing
about the other reasons.  The decision is the first reason, in the order in which
they are tried, whose condition is met:

* `reasonFor_eq_iff` — the reason found is the one that `IsFirst`;
* `voting_law` — who may vote, who may look, who may do neither, and why, in terms
  of the profile, the problem and the submissions.

Design notes: two reasons are never both the first one (`IsFirst.unique`), so it
is enough to follow the decision down its branches once; every equivalence about a
single reason is then read off its conditions.
-/
import JudgePolicy.Proofs.Submission.Summary
import JudgePolicy.Voting
namespace JudgePolicy

namespace Voting

variable {u : Profile} {p : Problem} {records : List Submission} {now : Instant}

/-- The user takes part in a contest that has no end or has not ended. -/
def InContest (u : Profile) (now : Instant) : Prop :=
  ∃ c, u.participation = some c ∧
    (c.endsAt = none ∨ ∃ stop, c.endsAt = some stop ∧ now < stop)

/-- Some submission of the user to the problem was accepted. -/
def Solved (records : List Submission) (user : ProfileId) (p : Problem) : Prop :=
  ∃ s ∈ records, s.Solves user p

/-- Some accepted submission of the user has exactly the problem's points. -/
def FullySolved (records : List Submission) (user : ProfileId) (p : Problem) : Prop :=
  ∃ s ∈ records, s.Solves user p ∧ s.points.equals p.points = true

theorem isLiveAt_iff {c : Participation} :
    c.isLiveAt now = true ↔ c.endsAt = none ∨ ∃ stop, c.endsAt = some stop ∧ now < stop := by
  rw [Participation.isLiveAt]
  cases c.endsAt with
  | none => simp
  | some stop => simp

theorem any_isLiveAt_iff : u.participation.any (·.isLiveAt now) = true ↔ InContest u now := by
  rw [Option.any_eq_true, InContest]
  constructor
  · rintro ⟨c, hc, hlive⟩
    exact ⟨c, hc, isLiveAt_iff.mp hlive⟩
  · rintro ⟨c, hc, hlive⟩
    exact ⟨c, hc, isLiveAt_iff.mpr hlive⟩

/-- Outside of contests: no contest, or one that has ended. -/
theorem not_inContest_iff : ¬InContest u now ↔
    u.participation = none ∨
      ∃ c stop, u.participation = some c ∧ c.endsAt = some stop ∧ stop ≤ now := by
  rw [InContest]
  cases hpart : u.participation with
  | none => simp
  | some c =>
    cases hends : c.endsAt with
    | none => simp [hends]
    | some stop => simp [hends, Instant.not_lt]

/-! ### The first reason that applies -/

/-- What makes a reason apply to a user, whatever the other reasons. -/
def Reason.Applies (u : Profile) (p : Problem) (records : List Submission) (now : Instant) :
    Reason → Prop
  | anonymous => False
  | inLiveContest => InContest u now
  | unsolved => ¬Solved records u.id p
  | bannedGlobally => u.isBannedFromVoting = true
  | unlisted => u.isUnlisted = true
  | bannedFromProblem => u.id ∈ p.bannedUsers
  | partialCredit => ¬FullySolved records u.id p
  | eligible => True

/-- The reasons that are tried before a reason. -/
def Reason.earlier (r : Reason) : List Reason := all.takeWhile (· ≠ r)

/-- The reason applies, and none that is tried before it does. -/
def Reason.IsFirst (u : Profile) (p : Problem) (records : List Submission) (now : Instant)
    (r : Reason) : Prop :=
  r.Applies u p records now ∧ ∀ e ∈ r.earlier, ¬e.Applies u p records now

theorem Reason.mem_earlier_or (r r' : Reason) : r = r' ∨ r ∈ r'.earlier ∨ r' ∈ r.earlier := by
  cases r <;> cases r' <;> decide

theorem Reason.IsFirst.unique {r r' : Reason} (h : r.IsFirst u p records now)
    (h' : r'.IsFirst u p records now) : r = r' := by
  rcases mem_earlier_or r r' with heq | hmem | hmem
  · exact heq
  · exact absurd h.1 (h'.2 r hmem)
  · exact absurd h'.1 (h.2 r' hmem)

/-- The reason found for a user is the first one that applies. -/
theorem isFirst_reasonFor (u : Profile) (p : Problem) (records : List Submission)
    (now : Instant) :
    (reasonFor u p (.ofSubmissions records u.id p) now).IsFirst u p records now := by
  have hsolved : (!(History.ofSubmissions records u.id p).hasAccepted) = true ↔
      ¬Solved records u.id p := by
    rw [Bool.not_eq_true', ← Bool.not_eq_true, History.hasAccepted_ofSubmissions, Solved]
  have hfully : (!(History.ofSubmissions records u.id p).hasFullScore) = true ↔
      ¬FullySolved records u.id p := by
    rw [Bool.not_eq_true', ← Bool.not_eq_true, History.hasFullScore_ofSubmissions, FullySolved]
  rw [reasonFor]
  -- One condition after the other; in each case all earlier ones are known to fail.
  by_cases h₁ : InContest u now
  · rw [if_pos (any_isLiveAt_iff.mpr h₁)]
    exact ⟨h₁, by simp [Reason.earlier, Reason.all, Reason.Applies]⟩
  rw [if_neg (mt any_isLiveAt_iff.mp h₁)]
  by_cases h₂ : Solved records u.id p
  case neg =>
    rw [if_pos (hsolved.mpr h₂)]
    exact ⟨h₂, by simp [Reason.earlier, Reason.all, Reason.Applies, h₁]⟩
  rw [if_neg fun h => hsolved.mp h h₂]
  by_cases h₃ : u.isBannedFromVoting = true
  · rw [if_pos h₃]
    exact ⟨h₃, by simp [Reason.earlier, Reason.all, Reason.Applies, h₁, h₂]⟩
  rw [if_neg h₃]
  by_cases h₄ : u.isUnlisted = true
  · rw [if_pos h₄]
    exact ⟨h₄, by simp [Reason.earlier, Reason.all, Reason.Applies, h₁, h₂, h₃]⟩
  rw [if_neg h₄]
  by_cases h₅ : u.id ∈ p.bannedUsers
  · rw [if_pos h₅]
    exact ⟨h₅, by simp [Reason.earlier, Reason.all, Reason.Applies, h₁, h₂, h₃, h₄]⟩
  rw [if_neg h₅]
  by_cases h₆ : FullySolved records u.id p
  case neg =>
    rw [if_pos (hfully.mpr h₆)]
    exact ⟨h₆, by simp [Reason.earlier, Reason.all, Reason.Applies, h₁, h₂, h₃, h₄, h₅]⟩
  rw [if_neg fun h => hfully.mp h h₆]
  exact ⟨trivial, by simp [Reason.earlier, Reason.all, Reason.Applies, h₁, h₂, h₃, h₄, h₅, h₆]⟩

theorem reasonFor_eq_iff {r : Reason} :
    reasonFor u p (.ofSubmissions records u.id p) now = r ↔ r.IsFirst u p records now := by
  constructor
  · rintro rfl
    exact isFirst_reasonFor u p records now
  · intro h
    exact (isFirst_reasonFor u p records now).unique h

/-! ### The decision -/

/-- What a user with these submissions may do with the votes on a problem. -/
def decisionAbout (u : Profile) (p : Problem) (records : List Submission) (now : Instant) :
    Decision :=
  (Viewer.authenticated u).votingOn p (.ofSubmissions records u.id p) now

theorem decisionAbout_eq_iff {r : Reason} :
    decisionAbout u p records now = r.decision ↔ r.IsFirst u p records now := by
  rw [← reasonFor_eq_iff]
  show (reasonFor u p (.ofSubmissions records u.id p) now).decision = r.decision ↔ _
  constructor
  · intro h
    exact congrArg Decision.reason h
  · intro h
    rw [h]

theorem FullySolved.solved (h : FullySolved records u.id p) : Solved records u.id p := by
  obtain ⟨s, hs, hsolves, -⟩ := h
  exact ⟨s, hs, hsolves⟩

/-- Nothing stands in the way of a vote.  The full score implies that the problem
was solved, so the problem being solved is not asked for on its own. -/
theorem isFirst_eligible_iff : Reason.eligible.IsFirst u p records now ↔
    ¬InContest u now ∧ u.isBannedFromVoting = false ∧ u.isUnlisted = false ∧
      u.id ∉ p.bannedUsers ∧ FullySolved records u.id p := by
  have hsolved : ¬InContest u now → u.isBannedFromVoting = false → u.isUnlisted = false →
      u.id ∉ p.bannedUsers → FullySolved records u.id p → Solved records u.id p :=
    fun _ _ _ _ hfully => hfully.solved
  simpa [Reason.IsFirst, Reason.earlier, Reason.all, Reason.Applies] using hsolved

/-! ### The permission alone -/

theorem Permission.eq_view_iff {a : Permission} : a = view ↔ a ≠ none ∧ a ≠ vote := by
  cases a <;> decide

theorem Reason.permission_eq_none_iff {r : Reason} :
    r.permission = .none ↔ r = anonymous ∨ r = inLiveContest ∨ r = unsolved := by
  cases r <;> decide

theorem Reason.permission_eq_vote_iff {r : Reason} : r.permission = .vote ↔ r = eligible := by
  cases r <;> decide

theorem permission_eq_vote_iff :
    (decisionAbout u p records now).permission = .vote ↔
      ¬InContest u now ∧ u.isBannedFromVoting = false ∧ u.isUnlisted = false ∧
        u.id ∉ p.bannedUsers ∧ FullySolved records u.id p := by
  show (reasonFor u p (.ofSubmissions records u.id p) now).permission = .vote ↔ _
  rw [Reason.permission_eq_vote_iff, reasonFor_eq_iff, isFirst_eligible_iff]

theorem permission_eq_none_iff :
    (decisionAbout u p records now).permission = .none ↔
      InContest u now ∨ ¬Solved records u.id p := by
  show (reasonFor u p (.ofSubmissions records u.id p) now).permission = .none ↔ _
  rw [Reason.permission_eq_none_iff, reasonFor_eq_iff, reasonFor_eq_iff, reasonFor_eq_iff]
  by_cases h : InContest u now <;>
    simp [Reason.IsFirst, Reason.earlier, Reason.all, Reason.Applies, h]

theorem permission_eq_view_iff :
    (decisionAbout u p records now).permission = .view ↔
      ¬InContest u now ∧ Solved records u.id p ∧
        (u.isBannedFromVoting = true ∨ u.isUnlisted = true ∨ u.id ∈ p.bannedUsers ∨
          ¬FullySolved records u.id p) := by
  rw [Permission.eq_view_iff, Ne, Ne, permission_eq_none_iff, permission_eq_vote_iff, not_or,
    Classical.not_not, and_assoc]
  refine and_congr_right fun hcontest => and_congr_right fun _ => ?_
  -- Outside of contests, one of the other four conditions for a vote is missing.
  rw [Classical.not_and_iff_not_or_not, Classical.not_not, or_iff_right hcontest]
  simp only [Classical.not_and_iff_not_or_not, Bool.not_eq_false, Classical.not_not]

end Voting

open Voting in
/-- **The voting law.**  A user may vote outside of contests, if not banned or
unlisted, once some accepted submission has exactly the problem's points; has no
right during a contest or without an accepted submission; and may look otherwise.
The reason given is the first that applies.  Only accepted submissions count, and
an anonymous viewer has no right. -/
theorem voting_law (u : Profile) (p : Problem) (records : List Submission) (now : Instant) :
    (decisionAbout u p records now = ⟨.vote, .eligible⟩ ↔
      ¬InContest u now ∧ u.isBannedFromVoting = false ∧ u.isUnlisted = false ∧
        u.id ∉ p.bannedUsers ∧ FullySolved records u.id p) ∧
    (decisionAbout u p records now = ⟨.none, .inLiveContest⟩ ↔ InContest u now) ∧
    (decisionAbout u p records now = ⟨.none, .unsolved⟩ ↔
      ¬Solved records u.id p ∧ ¬InContest u now) ∧
    (decisionAbout u p records now = ⟨.view, .bannedGlobally⟩ ↔
      u.isBannedFromVoting = true ∧ ¬InContest u now ∧ Solved records u.id p) ∧
    (decisionAbout u p records now = ⟨.view, .unlisted⟩ ↔
      u.isUnlisted = true ∧ ¬InContest u now ∧ Solved records u.id p ∧
        u.isBannedFromVoting = false) ∧
    (decisionAbout u p records now = ⟨.view, .bannedFromProblem⟩ ↔
      u.id ∈ p.bannedUsers ∧ ¬InContest u now ∧ Solved records u.id p ∧
        u.isBannedFromVoting = false ∧ u.isUnlisted = false) ∧
    (decisionAbout u p records now = ⟨.view, .partialCredit⟩ ↔
      ¬FullySolved records u.id p ∧ ¬InContest u now ∧ Solved records u.id p ∧
        u.isBannedFromVoting = false ∧ u.isUnlisted = false ∧ u.id ∉ p.bannedUsers) ∧
    ((decisionAbout u p records now).permission = .vote ↔
      decisionAbout u p records now = ⟨.vote, .eligible⟩) ∧
    ((decisionAbout u p records now).permission = .none ↔
      InContest u now ∨ ¬Solved records u.id p) ∧
    ((decisionAbout u p records now).permission = .view ↔
      ¬InContest u now ∧ Solved records u.id p ∧
        (u.isBannedFromVoting = true ∨ u.isUnlisted = true ∨ u.id ∈ p.bannedUsers ∨
          ¬FullySolved records u.id p)) ∧
    (¬InContest u now ↔ u.participation = none ∨
      ∃ c stop, u.participation = some c ∧ c.endsAt = some stop ∧ stop ≤ now) ∧
    decisionAbout u p (records.filter (·.verdict.isAccepted)) now =
      decisionAbout u p records now ∧
    ∀ h : History, Viewer.anonymous.votingOn p h now = ⟨.none, .anonymous⟩ := by
  have hreason : ∀ r : Reason, decisionAbout u p records now = r.decision ↔
      r.Applies u p records now ∧ ∀ e ∈ r.earlier, ¬e.Applies u p records now :=
    fun r => decisionAbout_eq_iff
  refine ⟨?_, ?_, ?_, ?_, ?_, ?_, ?_, ?_, permission_eq_none_iff, permission_eq_view_iff,
    not_inContest_iff, ?_, fun h => rfl⟩
  · exact decisionAbout_eq_iff.trans isFirst_eligible_iff
  · refine (hreason .inLiveContest).trans ?_
    simp [Reason.earlier, Reason.all, Reason.Applies]
  · refine (hreason .unsolved).trans ?_
    simp [Reason.earlier, Reason.all, Reason.Applies]
  · refine (hreason .bannedGlobally).trans ?_
    simp [Reason.earlier, Reason.all, Reason.Applies]
  · refine (hreason .unlisted).trans ?_
    simp [Reason.earlier, Reason.all, Reason.Applies]
  · refine (hreason .bannedFromProblem).trans ?_
    simp [Reason.earlier, Reason.all, Reason.Applies]
  · refine (hreason .partialCredit).trans ?_
    simp [Reason.earlier, Reason.all, Reason.Applies]
  · exact permission_eq_vote_iff.trans (decisionAbout_eq_iff.trans isFirst_eligible_iff).symm
  · rw [decisionAbout, History.ofSubmissions_filter_isAccepted]
    rfl

end JudgePolicy
