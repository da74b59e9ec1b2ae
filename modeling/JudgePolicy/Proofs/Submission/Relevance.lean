/-
What a history reads of the submissions, and in which sense their order is lost.

Only the *relevant* submissions count: those of the user to the problem that were
accepted.  Their flags are settled by `hasAccepted_ofSubmissions` and
`hasFullScore_ofSubmissions`; the rest is about the best points:

* `foldl_max_mem`, `le_foldl_max` — the greatest score is one of the scores, and none is
  above it;
* `exists_greatest_best` — so the best points are at the greatest place;
* `best_eq_nan_iff`, `exists_best` — they are NaN only if there is nothing else, and
  otherwise a number of the list that no other number exceeds;
* `SumsUp.alike` — scores determine a history up to the sign of a zero, NaN or not;
* `SumsUp.combine` — and the scores of two lists together those of the combined history;
* `histories_depend_on_relevant_submissions` — so only the multiset of the relevant
  submissions matters, up to the sign of a zero.

Design notes: of two equal numbers `Binary64.larger` keeps the first, and the two zeros
are equal.  This is the only trace of the order in which submissions came, and
`History.withoutZeroSign` wipes it out.  A rank is an `Option`, where `none` is below
everything: this is where NaN stands when it is compared with the best points so far.
-/
import JudgePolicy.Proofs.Database.History
import JudgePolicy.Proofs.Submission.Summary
namespace JudgePolicy

/-- Numbers at the same place among all numbers differ at most in the sign of a zero. -/
theorem Binary64.withoutZeroSign_eq_of_rank_eq {x y : Binary64} (h : x.rank = y.rank) :
    x.withoutZeroSign = y.withoutZeroSign := by
  cases x with
  | nan =>
    obtain rfl := rank_eq_none_iff.mp h.symm
    rfl
  | number s k hk =>
    cases y with
    | nan => exact absurd (rank_eq_none_iff.mp h) (by simp)
    | number t m hm =>
      rw [withoutZeroSign, withoutZeroSign]
      by_cases hzero : k = 0
      · have hm0 : m = 0 := by cases s <;> cases t <;> simp [rank] at h <;> omega
        rw [if_pos hzero, if_pos hm0]
      · have hsame : s = t ∧ k = m := by cases s <;> cases t <;> simp [rank] at h ⊢ <;> omega
        obtain ⟨rfl, rfl⟩ := hsame
        rfl

/-- A number is below or equal to what is at no lower place. -/
theorem Binary64.less_or_equals {x y : Binary64} (hx : x ≠ .nan) (h : x.rank ≤ y.rank) :
    x.less y = true ∨ x.equals y = true := by
  obtain ⟨r, hr⟩ := Option.ne_none_iff_exists'.mp (mt rank_eq_none_iff.mp hx)
  rw [hr] at h
  cases hg : y.rank with
  | none => exact absurd (hg ▸ h) Option.not_some_le_none
  | some g =>
    have hrg : r ≤ g := Option.some_le_some.mp (hg ▸ h)
    rw [less, equals, hr, hg, decide_eq_true_iff, beq_iff_eq]
    omega

instance (s : Submission) (user : ProfileId) (problem : Problem) :
    Decidable (s.Solves user problem) :=
  decidable_of_iff _ Submission.countsFor_iff

namespace History

variable {problem : Problem} {user : ProfileId} {h k : History} {l m : List (Option Int)}

/-- The accepted submissions of a user to a problem. -/
def relevant (submissions : List Submission) (user : ProfileId) (problem : Problem) :
    List Submission :=
  submissions.filter (·.Solves user problem)

theorem relevant_eq (submissions : List Submission) (user : ProfileId) (problem : Problem) :
    relevant submissions user problem = submissions.filter (·.countsFor user problem) := by
  refine List.filter_congr fun s _ => ?_
  rw [Bool.eq_iff_iff, decide_eq_true_iff, Submission.countsFor_iff]

theorem ofSubmissions_relevant (submissions : List Submission) (user : ProfileId)
    (problem : Problem) :
    ofSubmissions (relevant submissions user problem) user problem =
      ofSubmissions submissions user problem := by
  rw [ofSubmissions, relevant_eq, List.filter_filter]
  simp only [Bool.and_self]
  rfl

/-! ### The greatest score -/

instance : Std.MaxEqOr (Option Int) where
  max_eq_or a b := by
    cases a <;> cases b <;> simp
    omega

instance : Std.LawfulOrderSup (Option Int) where
  max_le_iff a b c := by
    obtain _ | a := a
    · simp
    obtain _ | b := b
    · simp
    obtain _ | c := c
    · simp
    show some (max a b) ≤ some c ↔ some a ≤ some c ∧ some b ≤ some c
    simp only [Option.some_le_some, Int.max_le]

instance : Std.Refl ((· ≤ ·) : Option Int → Option Int → Prop) where
  refl a := by cases a <;> simp

instance : Std.Associative (max : Option Int → Option Int → Option Int) where
  assoc a b c := by cases a <;> cases b <;> cases c <;> simp [Int.max_assoc]

/-- The greatest score is one of the scores. -/
theorem foldl_max_mem (l : List (Option Int)) (a : Option Int) : l.foldl max a ∈ a :: l :=
  List.max?_mem List.max?_cons'

/-- No score is above the greatest one. -/
theorem le_foldl_max {a r : Option Int} (h : r ∈ l) : r ≤ l.foldl max a :=
  (List.max?_le_iff List.max?_cons').mp (Std.Refl.refl _) r (List.mem_cons_of_mem a h)

theorem foldl_max_append (l m : List (Option Int)) :
    (l ++ m).foldl max none = max (l.foldl max none) (m.foldl max none) := by
  rw [List.foldl_append]
  conv => lhs; rw [← Option.max_none_right (o := l.foldl max none)]
  exact List.foldl_assoc

/-! ### The best points -/

theorem mem_scores {submissions : List Submission} {r : Option Int} :
    r ∈ scores submissions user problem ↔
      ∃ s ∈ submissions, s.Solves user problem ∧ s.points.rank = r := by
  rw [scores, List.mem_map]
  simp only [List.mem_filter, Submission.countsFor_iff, and_assoc]

/-- As soon as submissions count, the best points are at the greatest place among theirs;
NaN has the lowest. -/
theorem exists_greatest_best {submissions : List Submission}
    (h : ∃ s ∈ submissions, s.Solves user problem) :
    ∃ best, (ofSubmissions submissions user problem).best = some best ∧
      (∃ s ∈ submissions, s.Solves user problem ∧ s.points.rank = best.rank) ∧
      ∀ s ∈ submissions, s.Solves user problem → s.points.rank ≤ best.rank := by
  obtain ⟨best, hbest⟩ := Option.isSome_iff_exists.mp (hasAccepted_ofSubmissions.mpr h)
  have hrank : best.rank = (scores submissions user problem).foldl max none := by
    rw [← (sumsUp_ofSubmissions submissions user problem).rank_best, hbest]
    rfl
  have habove : ∀ s ∈ submissions, s.Solves user problem → s.points.rank ≤ best.rank := by
    intro s hs hsolves
    rw [hrank]
    exact le_foldl_max (mem_scores.mpr ⟨s, hs, hsolves, rfl⟩)
  refine ⟨best, hbest, ?_, habove⟩
  have hmem := foldl_max_mem (scores submissions user problem) none
  rw [← hrank, List.mem_cons] at hmem
  rcases hmem with hnone | hscore
  · -- If the greatest score is that of NaN, all submissions that count have it.
    obtain ⟨s, hs, hsolves⟩ := h
    have hlow := habove s hs hsolves
    rw [hnone, Option.le_none] at hlow
    exact ⟨s, hs, hsolves, hlow.trans hnone.symm⟩
  · exact mem_scores.mp hscore

/-- The best points are NaN exactly if some submission counts and all that do have NaN. -/
theorem best_eq_nan_iff {submissions : List Submission} :
    (ofSubmissions submissions user problem).best = some .nan ↔
      (∃ s ∈ submissions, s.Solves user problem) ∧
        ∀ s ∈ submissions, s.Solves user problem → s.points = .nan := by
  constructor
  · intro hnan
    have haccepted : (ofSubmissions submissions user problem).hasAccepted = true := by
      rw [hasAccepted, hnan, Option.isSome_some]
    have hsolved := hasAccepted_ofSubmissions.mp haccepted
    obtain ⟨best, hbest, -, habove⟩ := exists_greatest_best hsolved
    obtain rfl := Option.some.inj (hbest.symm.trans hnan)
    exact ⟨hsolved, fun s hs hsolves =>
      Binary64.rank_eq_none_iff.mp (Option.le_none.mp (habove s hs hsolves))⟩
  · rintro ⟨hsolved, hnan⟩
    obtain ⟨best, hbest, ⟨s, hs, hsolves, hr⟩, -⟩ := exists_greatest_best hsolved
    rw [hnan s hs hsolves] at hr
    rw [hbest, Binary64.rank_eq_none_iff.mp hr.symm]

/-- Unless all are NaN, the best points are those of a submission that counts, and no
other number among them is above. -/
theorem exists_best {submissions : List Submission} {s : Submission} (hs : s ∈ submissions)
    (hsolves : s.Solves user problem) (hnumber : s.points ≠ .nan) :
    ∃ best, (ofSubmissions submissions user problem).best = some best ∧
      (∃ s ∈ submissions, s.Solves user problem ∧ best.equals s.points = true) ∧
      ∀ s ∈ submissions, s.Solves user problem → s.points ≠ .nan →
        s.points.less best = true ∨ s.points.equals best = true := by
  obtain ⟨best, hbest, ⟨t, ht, htsolves, htr⟩, habove⟩ := exists_greatest_best ⟨s, hs, hsolves⟩
  have hsome : best.rank.isSome = true := by
    rw [Option.isSome_iff_ne_none]
    intro hnone
    have hlow := habove s hs hsolves
    rw [hnone, Option.le_none, Binary64.rank_eq_none_iff] at hlow
    exact hnumber hlow
  refine ⟨best, hbest, ⟨t, ht, htsolves, ?_⟩, fun u hu husolves hunumber =>
    Binary64.less_or_equals hunumber (habove u hu husolves)⟩
  rw [Binary64.equals_eq, htr, hsome, Bool.true_and]
  exact beq_self_eq_true best.rank

/-! ### Histories up to the sign of a zero -/

/-- The history with the positive zero in place of the negative one. -/
def withoutZeroSign (h : History) : History :=
  { h with best := h.best.map Binary64.withoutZeroSign }

/-- The history of two lists of submissions, from those of each. -/
def combine (h k : History) : History :=
  ⟨h.best.merge Binary64.larger k.best, h.hasFullScore || k.hasFullScore⟩

namespace SumsUp

/-- Scores determine a history up to the sign of a zero. -/
theorem alike (hl : h.SumsUp problem l) (kl : k.SumsUp problem l) :
    h.withoutZeroSign = k.withoutZeroSign := by
  have haccepted : h.hasAccepted = k.hasAccepted := hl.hasAccepted.trans kl.hasAccepted.symm
  have hfull : h.hasFullScore = k.hasFullScore := hl.hasFullScore.trans kl.hasFullScore.symm
  have hrank : h.best.bind Binary64.rank = k.best.bind Binary64.rank :=
    hl.rank_best.trans kl.rank_best.symm
  obtain ⟨best, full⟩ := h
  obtain ⟨best', full'⟩ := k
  obtain rfl : full = full' := hfull
  cases best with
  | none =>
    cases best' with
    | none => rfl
    | some y => cases haccepted
  | some x =>
    cases best' with
    | none => cases haccepted
    | some y =>
      have hxy : x.rank = y.rank := hrank
      show History.mk (some x.withoutZeroSign) full = History.mk (some y.withoutZeroSign) full
      rw [Binary64.withoutZeroSign_eq_of_rank_eq hxy]

/-- The scores of two lists are the scores of the combined history. -/
theorem combine (hl : h.SumsUp problem l) (km : k.SumsUp problem m) :
    (h.combine k).SumsUp problem (l ++ m) where
  hasAccepted := by
    have hmerge : (h.combine k).hasAccepted = (h.hasAccepted || k.hasAccepted) := by
      rw [History.combine, History.hasAccepted, History.hasAccepted, History.hasAccepted,
        Option.isSome_merge]
    have hempty : (l ++ m).isEmpty = (l.isEmpty && m.isEmpty) := by cases l <;> rfl
    rw [hmerge, hl.hasAccepted, km.hasAccepted, hempty, Bool.not_and]
  hasFullScore := by
    rw [List.any_append, ← hl.hasFullScore, ← km.hasFullScore]
    rfl
  rank_best := by
    rw [foldl_max_append, ← hl.rank_best, ← km.rank_best, History.combine]
    cases h.best with
    | none => rw [Option.merge_none_left, Option.bind_none, Option.max_none_left]
    | some x =>
      cases k.best with
      | none => rw [Option.merge_none_right, Option.bind_none, Option.max_none_right]
      | some y => exact Binary64.rank_larger x y

end SumsUp

theorem scores_eq (submissions : List Submission) (user : ProfileId) (problem : Problem) :
    scores submissions user problem =
      (relevant submissions user problem).map (·.points.rank) := by
  rw [relevant_eq, scores]

theorem scores_append (submissions others : List Submission) (user : ProfileId)
    (problem : Problem) :
    scores (submissions ++ others) user problem =
      scores submissions user problem ++ scores others user problem := by
  rw [scores, List.filter_append, List.map_append, scores, scores]

end History

open History in
/-- **Histories depend on the relevant submissions**, those of the user to the problem
that were accepted.  There is a history as soon as there is one of them, and a full score
as soon as one of them has the problem's points.  The best points are NaN if all of them
have NaN, and else a number of theirs that no other number of theirs exceeds.  Their order
and everything else in the list leave no trace but the sign of a zero, and up to this sign
the history of two lists is the combination of their histories. -/
theorem histories_depend_on_relevant_submissions (submissions : List Submission)
    (user : ProfileId) (problem : Problem) :
    let history := ofSubmissions submissions user problem
    ofSubmissions (relevant submissions user problem) user problem = history ∧
    (history.hasAccepted = true ↔ ∃ s ∈ submissions, s.Solves user problem) ∧
    (history.hasFullScore = true ↔
      ∃ s ∈ submissions, s.Solves user problem ∧ s.points.equals problem.points = true) ∧
    (history.best = some .nan ↔
      (∃ s ∈ submissions, s.Solves user problem) ∧
        ∀ s ∈ submissions, s.Solves user problem → s.points = .nan) ∧
    ((∃ s ∈ submissions, s.Solves user problem ∧ s.points ≠ .nan) →
      ∃ best, history.best = some best ∧
        (∃ s ∈ submissions, s.Solves user problem ∧ best.equals s.points = true) ∧
        ∀ s ∈ submissions, s.Solves user problem → s.points ≠ .nan →
          s.points.less best = true ∨ s.points.equals best = true) ∧
    (∀ others : List Submission,
      (relevant others user problem).Perm (relevant submissions user problem) →
        (ofSubmissions others user problem).withoutZeroSign = history.withoutZeroSign) ∧
    ∀ others : List Submission,
      (ofSubmissions (submissions ++ others) user problem).withoutZeroSign =
        (history.combine (ofSubmissions others user problem)).withoutZeroSign := by
  intro history
  have hsums := sumsUp_ofSubmissions submissions user problem
  refine ⟨ofSubmissions_relevant submissions user problem, hasAccepted_ofSubmissions,
    hasFullScore_ofSubmissions, best_eq_nan_iff, ?_, ?_, ?_⟩
  · rintro ⟨s, hs, hsolves, hnumber⟩
    exact exists_best hs hsolves hnumber
  · intro others hperm
    have hscores : (scores others user problem).Perm (scores submissions user problem) := by
      rw [scores_eq, scores_eq]
      exact hperm.map _
    exact ((sumsUp_ofSubmissions others user problem).perm hscores).alike hsums
  · intro others
    have hboth := sumsUp_ofSubmissions (submissions ++ others) user problem
    rw [scores_append] at hboth
    exact hboth.alike (hsums.combine (sumsUp_ofSubmissions others user problem))

/-- NaN and both zeros, and ten points that do not count for the same user. -/
def zeroSubmissions : List Submission := [
  ⟨7, 1, .accepted, .nan, "PY3"⟩,
  ⟨7, 1, .accepted, .ofOrdinal true 0, "PY3"⟩,
  ⟨7, 1, .wrongAnswer, .ofOrdinal false 0x4024000000000000, "PY3"⟩,
  ⟨7, 1, .accepted, .zero, "CPP17"⟩,
  ⟨8, 1, .accepted, .ofOrdinal false 0x4024000000000000, "CPP17"⟩,
  ⟨9, 1, .accepted, .nan, "CPP17"⟩]

/-- The order shows in the sign of the zero, and nowhere else. -/
theorem histories_depend_on_relevant_submissions_zeros :
    History.ofSubmissions zeroSubmissions.reverse 7 tenPointProblem ≠
      History.ofSubmissions zeroSubmissions 7 tenPointProblem ∧
    (History.ofSubmissions zeroSubmissions.reverse 7 tenPointProblem).withoutZeroSign =
      (History.ofSubmissions zeroSubmissions 7 tenPointProblem).withoutZeroSign ∧
    (∃ best, (History.ofSubmissions zeroSubmissions 7 tenPointProblem).best = some best ∧
      (∃ s ∈ zeroSubmissions, s.Solves 7 tenPointProblem ∧ best.equals s.points = true) ∧
      ∀ s ∈ zeroSubmissions, s.Solves 7 tenPointProblem → s.points ≠ .nan →
        s.points.less best = true ∨ s.points.equals best = true) ∧
    (History.ofSubmissions zeroSubmissions 9 tenPointProblem).best = some .nan := by
  obtain ⟨-, -, -, -, hbest, hperm, -⟩ :=
    histories_depend_on_relevant_submissions zeroSubmissions 7 tenPointProblem
  obtain ⟨-, -, -, hnan, -, -, -⟩ :=
    histories_depend_on_relevant_submissions zeroSubmissions 9 tenPointProblem
  refine ⟨by decide, hperm _ ((List.reverse_perm _).filter _), hbest (by decide), ?_⟩
  exact hnan.mpr (by decide)

end JudgePolicy
