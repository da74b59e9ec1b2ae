/-
Rights to vote as time goes by and submissions come in.

Of the questions that settle a right to vote, three have answers that change: whether a
contest is on, whether the problem was solved, and whether it was solved with the full
score.  Each of them changes in one direction only, and every other question is asked of
the profile and the problem alone:

* `InContest.earlier` — a contest that is still on was on before;
* `History.Within.ofSubmissions` — more submissions take back no flag of a history,
  wherever they stand in the list and whatever their points;
* `permission_reasonFor_mono` — so the permission grows with the instant and the history;
* `voting_rights_never_shrink` — and with the submissions.

Design notes: permissions are compared through `Permission.le_iff`, that is by what it
takes to have any right at all and by what it takes to vote.  Reasons are not compared:
one that leaves the right to look may well give way to another.
-/
import JudgePolicy.Proofs.Database.History
import JudgePolicy.Proofs.Voting.Law
namespace JudgePolicy

/-! ### More submissions -/

/-- What the first history has, the second one has too: an accepted submission, and one
with the full score.  The best points are not compared. -/
structure History.Within (h k : History) : Prop where
  hasAccepted : h.hasAccepted = true → k.hasAccepted = true
  hasFullScore : h.hasFullScore = true → k.hasFullScore = true

theorem History.Within.ofSubmissions {submissions more : List Submission}
    (hmore : submissions ⊆ more) (user : ProfileId) (problem : Problem) :
    (History.ofSubmissions submissions user problem).Within
      (History.ofSubmissions more user problem) := by
  constructor
  · intro haccepted
    obtain ⟨s, hs, hsolves⟩ := hasAccepted_ofSubmissions.mp haccepted
    exact hasAccepted_ofSubmissions.mpr ⟨s, hmore hs, hsolves⟩
  · intro hfull
    obtain ⟨s, hs, hsolves, hpoints⟩ := hasFullScore_ofSubmissions.mp hfull
    exact hasFullScore_ofSubmissions.mpr ⟨s, hmore hs, hsolves, hpoints⟩

namespace Voting

variable {u : Profile} {p : Problem} {h k : History} {now later : Instant}

/-! ### Later instants -/

theorem InContest.earlier (hlive : InContest u later) (hnow : now ≤ later) : InContest u now := by
  obtain ⟨c, hc, hends | ⟨stop, hstop, hbefore⟩⟩ := hlive
  · exact ⟨c, hc, .inl hends⟩
  · exact ⟨c, hc, .inr ⟨stop, hstop, Instant.lt_of_le_of_lt hnow hbefore⟩⟩

/-! ### Permissions -/

/-- Permissions rise by giving some right in place of none, and a vote in place of less. -/
theorem Permission.le_iff {a b : Permission} :
    a ≤ b ↔ (a ≠ none → b ≠ none) ∧ (a = vote → b = vote) := by
  cases a <;> cases b <;> decide

theorem permission_reasonFor_eq_none_iff :
    (reasonFor u p h now).permission = .none ↔ InContest u now ∨ h.hasAccepted = false := by
  rw [reasonFor, ← any_isLiveAt_iff]
  -- One question after the other; only the first two leave no right.
  repeat' split
  all_goals simp_all [Reason.permission]

theorem permission_reasonFor_eq_vote_iff :
    (reasonFor u p h now).permission = .vote ↔
      ¬InContest u now ∧ h.hasAccepted = true ∧ u.isBannedFromVoting = false ∧
        u.isUnlisted = false ∧ u.id ∉ p.bannedUsers ∧ h.hasFullScore = true := by
  rw [reasonFor, ← any_isLiveAt_iff]
  repeat' split
  all_goals simp_all [Reason.permission]

/-- The permission grows with the history and with the instant. -/
theorem permission_reasonFor_mono (hk : h.Within k) (hnow : now ≤ later) :
    (reasonFor u p h now).permission ≤ (reasonFor u p k later).permission := by
  rw [Permission.le_iff]
  constructor
  · intro hsome hnone
    refine hsome (permission_reasonFor_eq_none_iff.mpr ?_)
    rcases permission_reasonFor_eq_none_iff.mp hnone with hlive | hunsolved
    · exact .inl (hlive.earlier hnow)
    · rw [← Bool.not_eq_true] at hunsolved ⊢
      exact .inr (mt hk.hasAccepted hunsolved)
  · intro hvote
    obtain ⟨hfree, haccepted, hbanned, hunlisted, hproblem, hfull⟩ :=
      permission_reasonFor_eq_vote_iff.mp hvote
    exact permission_reasonFor_eq_vote_iff.mpr ⟨fun hlive => hfree (hlive.earlier hnow),
      hk.hasAccepted haccepted, hbanned, hunlisted, hproblem, hk.hasFullScore hfull⟩

end Voting

/-- **Rights to vote never shrink.**  The permission on a problem at a later instant, with
all of the submissions in any order and whatever others, is at least the permission
before. -/
theorem voting_rights_never_shrink (v : Viewer) (problem : Problem) (user : ProfileId)
    {submissions more : List Submission} (hmore : submissions ⊆ more) {now later : Instant}
    (hnow : now ≤ later) :
    (v.votingOn problem (.ofSubmissions submissions user problem) now).permission ≤
      (v.votingOn problem (.ofSubmissions more user problem) later).permission := by
  cases v with
  | anonymous => exact Voting.Permission.le_iff.mpr ⟨id, id⟩
  | authenticated u =>
    exact Voting.permission_reasonFor_mono (.ofSubmissions hmore user problem) hnow

/-- A user whose contest ends with the tenth second. -/
def contestant : Profile := { id := 8, participation := some ⟨3, some ⟨10, 0, by decide⟩⟩ }

/-- Twelve points, and NaN. -/
def earlySubmissions : List Submission := [
  ⟨8, 1, .accepted, .ofOrdinal false 0x4028000000000000, "CPP17"⟩,
  ⟨8, 1, .accepted, .nan, "CPP17"⟩]

/-- Ten points, and the early submissions the other way around. -/
def laterSubmissions : List Submission :=
  ⟨8, 1, .accepted, .ofOrdinal false 0x4024000000000000, "PY3"⟩ :: earlySubmissions.reverse

/-- Lower points than before give the vote, if they are the full score. -/
theorem voting_rights_never_shrink_contestant :
    let before := (Viewer.authenticated contestant).votingOn tenPointProblem
      (.ofSubmissions earlySubmissions 8 tenPointProblem) ⟨10, 0, by decide⟩
    let after := (Viewer.authenticated contestant).votingOn tenPointProblem
      (.ofSubmissions laterSubmissions 8 tenPointProblem) ⟨10, 1, by decide⟩
    before = ⟨.view, .partialCredit⟩ ∧ after = ⟨.vote, .eligible⟩ ∧
      before.permission ≤ after.permission := by
  have hmore : earlySubmissions ⊆ laterSubmissions := fun s hs =>
    List.mem_cons_of_mem _ (List.mem_reverse.mpr hs)
  have hnow : (⟨10, 0, by decide⟩ : Instant) ≤ ⟨10, 1, by decide⟩ := by decide
  exact ⟨by decide, by decide,
    voting_rights_never_shrink (.authenticated contestant) tenPointProblem 8 hmore hnow⟩

end JudgePolicy
