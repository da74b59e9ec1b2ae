/-
What a summary of submissions says about the submissions.

`History.ofSubmissions` goes over the submissions once and keeps two things, the
best accepted points and a flag for the full score.  Read back, they say:

* `hasAccepted_ofSubmissions` — there is an accepted submission of this user to
  this problem;
* `hasFullScore_ofSubmissions` — one of these has the problem's points, whatever
  the points of the others;
* `ofSubmissions_filter_isAccepted` — submissions that were not accepted leave no
  trace;
* `sumsUp_ofSubmissions` — all that is left of the others is the places of their
  points among all numbers, in any order (`SumsUp.perm`).

Design notes: `SumsUp` determines a record up to the sign of a zero
(`SumsUp.agrees`), so it can be asked of every other way to come by a record.
-/
import JudgePolicy.Submission
namespace JudgePolicy

/-- An accepted submission of this user to this problem. -/
structure Submission.Solves (s : Submission) (user : ProfileId) (problem : Problem) : Prop where
  profile : s.profile = user
  problem : s.problem = problem.id
  verdict : s.verdict = .accepted

theorem Submission.countsFor_iff {s : Submission} {user : ProfileId} {problem : Problem} :
    s.countsFor user problem = true ↔ s.Solves user problem := by
  rw [countsFor, Bool.and_eq_true, Bool.and_eq_true, beq_iff_eq, beq_iff_eq,
    Verdict.isAccepted, beq_iff_eq]
  constructor
  · rintro ⟨⟨hprofile, hproblem⟩, hverdict⟩
    exact ⟨hprofile, hproblem, hverdict⟩
  · rintro ⟨hprofile, hproblem, hverdict⟩
    exact ⟨⟨hprofile, hproblem⟩, hverdict⟩

namespace History

variable {problem : Problem} {user : ProfileId}

/-! ### One more submission -/

theorem hasAccepted_extend (h : History) (points : Binary64) :
    (h.extend problem points).hasAccepted = true := rfl

theorem hasFullScore_extend (h : History) (points : Binary64) :
    (h.extend problem points).hasFullScore =
      (h.hasFullScore || points.equals problem.points) := rfl

theorem rank_best_extend (h : History) (points : Binary64) :
    (h.extend problem points).best.bind Binary64.rank =
      max (h.best.bind Binary64.rank) points.rank := by
  rw [extend]
  cases h.best with
  | none => exact Option.max_none_left.symm
  | some best => exact Binary64.rank_larger best points

/-! ### All submissions -/

theorem hasAccepted_foldl_extend (l : List Submission) (h : History) :
    (l.foldl (fun h s => h.extend problem s.points) h).hasAccepted =
      (h.hasAccepted || !l.isEmpty) := by
  induction l generalizing h with
  | nil => rw [List.foldl_nil, List.isEmpty_nil, Bool.not_true, Bool.or_false]
  | cons s rest ih =>
    rw [List.foldl_cons, ih, hasAccepted_extend, List.isEmpty_cons, Bool.not_false,
      Bool.true_or, Bool.or_true]

theorem hasFullScore_foldl_extend (l : List Submission) (h : History) :
    (l.foldl (fun h s => h.extend problem s.points) h).hasFullScore =
      (h.hasFullScore || l.any (·.points.equals problem.points)) := by
  induction l generalizing h with
  | nil => rw [List.foldl_nil, List.any_nil, Bool.or_false]
  -- The flag is only ever set, so later submissions do not clear it.
  | cons s rest ih =>
    rw [List.foldl_cons, ih, hasFullScore_extend, List.any_cons, Bool.or_assoc]

theorem rank_best_foldl_extend (l : List Submission) (h : History) :
    (l.foldl (fun h s => h.extend problem s.points) h).best.bind Binary64.rank =
      (l.map (·.points.rank)).foldl max (h.best.bind Binary64.rank) := by
  induction l generalizing h with
  | nil => rfl
  | cons s rest ih => rw [List.foldl_cons, ih, rank_best_extend, List.map_cons, List.foldl_cons]

theorem hasAccepted_ofSubmissions {submissions : List Submission} :
    (ofSubmissions submissions user problem).hasAccepted = true ↔
      ∃ s ∈ submissions, s.Solves user problem := by
  rw [ofSubmissions, hasAccepted_foldl_extend]
  show (!(submissions.filter (·.countsFor user problem)).isEmpty) = true ↔ _
  rw [Bool.not_eq_true', List.isEmpty_eq_false_iff_exists_mem]
  constructor
  · rintro ⟨s, hs⟩
    obtain ⟨hmem, hcounts⟩ := List.mem_filter.mp hs
    exact ⟨s, hmem, Submission.countsFor_iff.mp hcounts⟩
  · rintro ⟨s, hs, hsolves⟩
    exact ⟨s, List.mem_filter.mpr ⟨hs, Submission.countsFor_iff.mpr hsolves⟩⟩

theorem hasFullScore_ofSubmissions {submissions : List Submission} :
    (ofSubmissions submissions user problem).hasFullScore = true ↔
      ∃ s ∈ submissions, s.Solves user problem ∧ s.points.equals problem.points = true := by
  rw [ofSubmissions, hasFullScore_foldl_extend]
  show (submissions.filter (·.countsFor user problem)).any (·.points.equals problem.points) = true
    ↔ _
  rw [List.any_eq_true]
  constructor
  · rintro ⟨s, hs, hfull⟩
    obtain ⟨hmem, hcounts⟩ := List.mem_filter.mp hs
    exact ⟨s, hmem, Submission.countsFor_iff.mp hcounts, hfull⟩
  · rintro ⟨s, hs, hsolves, hfull⟩
    exact ⟨s, List.mem_filter.mpr ⟨hs, Submission.countsFor_iff.mpr hsolves⟩, hfull⟩

/-- Submissions that were not accepted leave no trace, whatever their points. -/
theorem ofSubmissions_filter_isAccepted (submissions : List Submission) (user : ProfileId)
    (problem : Problem) :
    ofSubmissions (submissions.filter (·.verdict.isAccepted)) user problem =
      ofSubmissions submissions user problem := by
  have hcounts : (submissions.filter (·.verdict.isAccepted)).filter (·.countsFor user problem) =
      submissions.filter (·.countsFor user problem) := by
    rw [List.filter_filter]
    refine List.filter_congr fun s _ => ?_
    rw [Submission.countsFor, Bool.and_assoc, Bool.and_self]
  rw [ofSubmissions, hcounts, ofSubmissions]

/-! ### Scores -/

/-- The places, among all numbers, of the points of a user's accepted submissions to
a problem. -/
def scores (submissions : List Submission) (user : ProfileId) (problem : Problem) :
    List (Option Int) :=
  (submissions.filter (·.countsFor user problem)).map (·.points.rank)

/-- The record has the greatest of these scores, and the flags that belong to them. -/
structure SumsUp (h : History) (problem : Problem) (scores : List (Option Int)) : Prop where
  hasAccepted : h.hasAccepted = !scores.isEmpty
  hasFullScore : h.hasFullScore = scores.any fun r => r.isSome && r == problem.points.rank
  rank_best : h.best.bind Binary64.rank = scores.foldl max none

/-- The records have the same flags, and best points that are equal as numbers. -/
structure Agrees (h k : History) : Prop where
  hasFullScore : h.hasFullScore = k.hasFullScore
  hasAccepted : h.hasAccepted = k.hasAccepted
  best : Option.Rel (fun a b => a.equals b = true) h.best k.best

/-- The greatest score is a number as soon as one score is. -/
theorem isSome_foldl_max (l : List (Option Int)) (r : Option Int) :
    (l.foldl max r).isSome = (r.isSome || l.any Option.isSome) := by
  induction l generalizing r with
  | nil => rw [List.foldl_nil, List.any_nil, Bool.or_false]
  | cons s rest ih =>
    rw [List.foldl_cons, ih, Option.isSome_max, List.any_cons, Bool.or_assoc]

theorem sumsUp_ofSubmissions (submissions : List Submission) (user : ProfileId)
    (problem : Problem) :
    (ofSubmissions submissions user problem).SumsUp problem
      (scores submissions user problem) where
  hasAccepted := by
    rw [ofSubmissions, hasAccepted_foldl_extend, scores, List.isEmpty_map]
    rfl
  hasFullScore := by
    rw [ofSubmissions, hasFullScore_foldl_extend, scores, List.any_map]
    simp only [Binary64.equals_eq]
    rfl
  rank_best := by
    rw [ofSubmissions, rank_best_foldl_extend]
    rfl

namespace SumsUp

variable {h k : History} {l m : List (Option Int)}

/-- The order of the scores does not matter. -/
theorem perm (hl : h.SumsUp problem l) (hperm : l.Perm m) : h.SumsUp problem m where
  hasAccepted := by rw [hl.hasAccepted, hperm.isEmpty_eq]
  hasFullScore := by rw [hl.hasFullScore, hperm.any_eq]
  rank_best := by
    have hmax : ∀ a b c : Option Int, max (max c a) b = max (max c b) a := by
      intro a b c
      cases a <;> cases b <;> cases c <;> simp [Int.max_comm]
      omega
    rw [hl.rank_best]
    exact hperm.foldl_eq' (fun a _ b _ c => hmax a b c) none

theorem exists_rank_best (hl : h.SumsUp problem l) (numbers : none ∉ l)
    (haccepted : h.hasAccepted = true) : ∃ r, h.best.bind Binary64.rank = some r := by
  rw [hl.hasAccepted, Bool.not_eq_true', List.isEmpty_eq_false_iff_exists_mem] at haccepted
  obtain ⟨s, hs⟩ := haccepted
  have hsome : s.isSome = true := Option.isSome_iff_ne_none.mpr fun hnone => numbers (hnone ▸ hs)
  rw [hl.rank_best, ← Option.isSome_iff_exists, isSome_foldl_max, Option.isSome_none, Bool.false_or]
  exact List.any_eq_true.mpr ⟨s, hs, hsome⟩

/-- Scores that are numbers determine a record up to the sign of a zero. -/
theorem agrees (hl : h.SumsUp problem l) (kl : k.SumsUp problem l) (numbers : none ∉ l) :
    h.Agrees k := by
  have haccepted : h.hasAccepted = k.hasAccepted := hl.hasAccepted.trans kl.hasAccepted.symm
  have hrank : h.best.bind Binary64.rank = k.best.bind Binary64.rank :=
    hl.rank_best.trans kl.rank_best.symm
  refine ⟨hl.hasFullScore.trans kl.hasFullScore.symm, haccepted, ?_⟩
  obtain ⟨best, full⟩ := h
  obtain ⟨best', full'⟩ := k
  cases best with
  | none =>
    cases best' with
    | none => exact .none
    | some b => cases haccepted
  | some a =>
    cases best' with
    | none => cases haccepted
    | some b =>
      obtain ⟨r, hr⟩ := hl.exists_rank_best numbers rfl
      have ha : a.rank = some r := hr
      have hb : b.rank = some r := hrank.symm.trans hr
      refine .some ?_
      rw [Binary64.equals_eq, ha, hb, Option.isSome_some, Bool.true_and]
      exact beq_self_eq_true (some r)

end SumsUp

end History

end JudgePolicy
