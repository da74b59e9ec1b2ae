/-
Records read from the database.

A query asks the submissions of a user for two aggregates, the largest points and
the number of full scores; a record made in memory goes over the submissions once.
Rows have no order, and a column of numbers keeps no sign of a zero, so a table
*holds* submissions in whatever order they come:

* `Tables.sumsUp_history` — the aggregates sum up the scores of the rows;
* `Tables.holds_foldl_addSubmission` — a table holds what was added to it;
* `queried_history_agrees_with_submissions` — the record that is read agrees with the
  record made of the submissions that the table holds, and so do the decisions on
  votes.

Design notes: of the largest points nothing is used but their place among all
numbers, so it does not matter which of several equal rows a query picks.
-/
import JudgePolicy.Database.Connection
import JudgePolicy.Proofs.Submission.Summary
import JudgePolicy.Voting
namespace JudgePolicy

namespace Submission

/-- A submission as the table keeps it. -/
def stored (s : Submission) : Submission := { s with points := s.points.withoutZeroSign }

theorem scores_map_stored (submissions : List Submission) (user : ProfileId)
    (problem : Problem) :
    History.scores (submissions.map stored) user problem =
      History.scores submissions user problem := by
  have hcounts : (fun s : Submission => s.countsFor user problem) ∘ stored =
      fun s => s.countsFor user problem := rfl
  have hrank : (fun s : Submission => s.points.rank) ∘ stored = fun s => s.points.rank :=
    funext fun s => Binary64.rank_withoutZeroSign s.points
  rw [History.scores, List.filter_map, List.map_map, hcounts, hrank, History.scores]

end Submission

namespace Tables

variable {t : Tables} {submissions : List Submission}

/-! ### The aggregates -/

theorem rank_foldl_larger (l : List Binary64) (x : Binary64) :
    (l.foldl Binary64.larger x).rank = (l.map Binary64.rank).foldl max x.rank := by
  induction l generalizing x with
  | nil => rfl
  | cons y rest ih => rw [List.foldl_cons, ih, Binary64.rank_larger, List.map_cons, List.foldl_cons]

theorem rank_largest (l : List Binary64) :
    (largest l).bind Binary64.rank = (l.map Binary64.rank).foldl max none := by
  cases l with
  | nil => rfl
  | cons x rest =>
    show (rest.foldl Binary64.larger x).rank = (rest.map Binary64.rank).foldl max (max none x.rank)
    rw [rank_foldl_larger, Option.max_none_left]

theorem isSome_largest (l : List Binary64) : (largest l).isSome = !l.isEmpty := by
  cases l with
  | nil => rfl
  | cons x rest => rfl

/-- The two aggregates sum up the rows of a user on a problem. -/
theorem sumsUp_history (t : Tables) (user : ProfileId) (problem : Problem) :
    (t.history user problem).SumsUp problem (History.scores t.submissions user problem) where
  hasAccepted := by
    show (largest ((t.accepted user problem).map (·.points))).isSome = _
    rw [isSome_largest, List.isEmpty_map, History.scores, List.isEmpty_map]
    rfl
  hasFullScore := by
    show decide (0 < ((t.accepted user problem).filter _).length) = _
    rw [Bool.eq_iff_iff, decide_eq_true_iff, List.length_filter_pos_iff, History.scores,
      List.any_map, List.any_eq_true]
    simp only [Binary64.equals_eq]
    rfl
  rank_best := by
    show (largest ((t.accepted user problem).map (·.points))).bind Binary64.rank = _
    rw [rank_largest, List.map_map]
    rfl

/-! ### What a table holds -/

/-- The rows are these submissions, in some order and up to the signs of zeros. -/
def Holds (t : Tables) (submissions : List Submission) : Prop :=
  (t.submissions.map Submission.stored).Perm (submissions.map Submission.stored)

theorem holds_submissions (t : Tables) : t.Holds t.submissions := List.Perm.refl _

theorem holds_addSubmission (h : t.Holds submissions) (s : Submission) :
    (t.addSubmission s).Holds (submissions ++ [s]) := by
  have hstored : s.stored.stored = s.stored := by
    show Submission.mk _ _ _ s.points.withoutZeroSign.withoutZeroSign _ = _
    rw [Binary64.withoutZeroSign_withoutZeroSign]
    rfl
  show ((t.submissions ++ [s.stored]).map Submission.stored).Perm _
  rw [List.map_append, List.map_append, List.map_singleton, List.map_singleton, hstored]
  exact h.append_right [s.stored]

/-- Added one by one, submissions join those that the table held before. -/
theorem holds_foldl_addSubmission (h : t.Holds submissions) (added : List Submission) :
    (added.foldl addSubmission t).Holds (submissions ++ added) := by
  induction added generalizing t submissions with
  | nil => rwa [List.append_nil]
  | cons s rest ih =>
    rw [List.foldl_cons, List.append_cons]
    exact ih (holds_addSubmission h s)

theorem Holds.scores_perm (h : t.Holds submissions) (user : ProfileId) (problem : Problem) :
    (History.scores t.submissions user problem).Perm
      (History.scores submissions user problem) := by
  rw [← Submission.scores_map_stored, ← Submission.scores_map_stored submissions]
  exact (h.filter _).map _

theorem none_not_mem_scores {submissions : List Submission}
    (numbers : ∀ s ∈ submissions, s.points ≠ .nan) (user : ProfileId) (problem : Problem) :
    none ∉ History.scores submissions user problem := by
  intro hmem
  obtain ⟨s, hs, hrank⟩ := List.mem_map.mp hmem
  exact numbers s (List.mem_filter.mp hs).1 (Binary64.rank_eq_none_iff.mp hrank)

end Tables

/-- Decisions read nothing of a record but its two flags. -/
theorem History.Agrees.votingOn_eq {h k : History} (hk : h.Agrees k) (v : Viewer)
    (problem : Problem) (now : Instant) :
    v.votingOn problem h now = v.votingOn problem k now := by
  cases v with
  | anonymous => rfl
  | authenticated u =>
    rw [Viewer.votingOn, Viewer.votingOn, Voting.reasonFor, Voting.reasonFor, hk.hasAccepted,
      hk.hasFullScore]

/-- **Queried records and records of submissions agree.**  On a table of numbers, the
record that a query reads has the flags and, up to the sign of a zero, the best points
of the record made of the submissions that the table holds, in whatever order they are
gone over.  So both lead to the same decision, for every viewer and at every instant. -/
theorem queried_history_agrees_with_submissions {c : Database.Connection} {t : Tables}
    (connected : c.tables = some t) (numbers : ∀ s ∈ t.submissions, s.points ≠ .nan)
    (user : ProfileId) (problem : Problem) :
    ∃ h, c.history user problem = .ok h ∧
      ∀ submissions : List Submission, t.Holds submissions →
        h.Agrees (.ofSubmissions submissions user problem) ∧
        ∀ (v : Viewer) (now : Instant),
          v.votingOn problem h now =
            v.votingOn problem (.ofSubmissions submissions user problem) now := by
  refine ⟨t.history user problem, ?_, ?_⟩
  · rw [Database.Connection.history, Database.Connection.query, connected]
    rfl
  · intro submissions holds
    have hscores := holds.scores_perm user problem
    have hqueried := t.sumsUp_history user problem
    have hmade := (History.sumsUp_ofSubmissions submissions user problem).perm hscores.symm
    have hagrees := hqueried.agrees hmade (Tables.none_not_mem_scores numbers user problem)
    exact ⟨hagrees, fun v now => hagrees.votingOn_eq v problem now⟩

/-- A problem for ten points. -/
def tenPointProblem : Problem where
  id := 1
  code := "ten"
  name := "ten"
  points := .ofOrdinal false 0x4024000000000000
  isPublic := true
  isOrganizationPrivate := false
  authors := ∅
  curators := ∅
  testers := ∅
  organizations := ∅
  bannedUsers := ∅
  code_length := by decide
  code_chars := by decide
  points_score := by decide

/-- Four, ten and twelve points and a zero with a sign, of which the user's accepted
submissions to the problem are only some. -/
def mixedSubmissions : List Submission := [
  ⟨7, 1, .accepted, .ofOrdinal true 0, "PY3"⟩,
  ⟨7, 1, .accepted, .ofOrdinal false 0x4010000000000000, "PY3"⟩,
  ⟨7, 1, .wrongAnswer, .ofOrdinal false 0x4024000000000000, "PY3"⟩,
  ⟨8, 1, .accepted, .ofOrdinal false 0x4024000000000000, "CPP17"⟩,
  ⟨8, 1, .accepted, .ofOrdinal false 0x4028000000000000, "CPP17"⟩,
  ⟨8, 2, .accepted, .infinity false, "CPP17"⟩]

theorem queried_history_agrees_with_submissions_mixed :
    ∃ c : Database.Connection, ∃ h k,
      c.history 7 tenPointProblem = .ok h ∧ c.history 8 tenPointProblem = .ok k ∧
      h.Agrees (.ofSubmissions mixedSubmissions.reverse 7 tenPointProblem) ∧
      k.Agrees (.ofSubmissions mixedSubmissions.reverse 8 tenPointProblem) ∧
      h.hasFullScore = false ∧ k.hasFullScore = true := by
  have hheld : (mixedSubmissions.foldl Tables.addSubmission {}).Holds mixedSubmissions.reverse :=
    (Tables.holds_foldl_addSubmission (Tables.holds_submissions {}) mixedSubmissions).trans
      ((List.reverse_perm _).map _).symm
  have agrees := queried_history_agrees_with_submissions
    (c := ⟨some (mixedSubmissions.foldl Tables.addSubmission {})⟩) rfl (by decide)
  obtain ⟨h, hh, hagrees⟩ := agrees 7 tenPointProblem
  obtain ⟨k, hk, kagrees⟩ := agrees 8 tenPointProblem
  have h7 := (hagrees _ hheld).1
  have k8 := (kagrees _ hheld).1
  refine ⟨_, h, k, hh, hk, h7, k8, ?_, ?_⟩
  · rw [h7.hasFullScore]
    decide
  · rw [k8.hasFullScore]
    decide

end JudgePolicy
