/-
A store in memory stands for the additions it was made of.

An addition touches one *place* of a store: what is kept under one identifier, under
one code or for one organization, or the submissions.

* `memory_store_answers_from_additions` — every lookup is answered from the additions
  to its place: profiles, problems and editorials by the latest one, administrators by
  all of them together, and records by all submissions in their order;
* `add_add_comm`, `ofAdditions_swap` — additions to different places can be made in
  either order.

Design notes: stores that answer every `get?` alike are the same value, so additions
in another order give the same store and not just the same answers.
-/
import JudgePolicy.Proofs.Store.Additions
namespace JudgePolicy

namespace MemoryStore

/-! ### Administrators and submissions -/

theorem mem_admins_addAdmins {s : MemoryStore} {o o' : OrganizationId}
    {ids : List ProfileId} {id : ProfileId} :
    id ∈ (s.addAdmins o ids).admins o' ↔ (o = o' ∧ id ∈ ids) ∨ id ∈ s.admins o' := by
  rw [addAdmins, admins, SortedMap.get?_insert_eq_or]
  by_cases ho : o = o'
  · subst ho
    rw [if_pos rfl, Option.some_or, Option.getD_some, SortedSet.mem_insertAll, or_comm]
    simp
  · rw [if_neg ho, Option.none_or]
    simp [ho, admins]

theorem mem_admins_add {s : MemoryStore} {a : Addition} {o : OrganizationId}
    {id : ProfileId} :
    id ∈ (s.add a).admins o ↔ (∃ ids, a = .admins o ids ∧ id ∈ ids) ∨ id ∈ s.admins o := by
  cases a with
  | admins o' ids =>
    show id ∈ (s.addAdmins o' ids).admins o ↔ _
    rw [mem_admins_addAdmins]
    simp [and_assoc]
  | _ => simp [add, addProfile, addProblem, addEditorial, addSubmission, admins]

/-- The administrators of an organization are all that were ever added to it. -/
theorem mem_admins_addAll {s : MemoryStore} {additions : List Addition}
    {o : OrganizationId} {id : ProfileId} :
    id ∈ (s.addAll additions).admins o ↔
      (∃ ids, Addition.admins o ids ∈ additions ∧ id ∈ ids) ∨ id ∈ s.admins o := by
  induction additions generalizing s with
  | nil => simp [addAll]
  | cons a rest ih =>
    show id ∈ ((s.add a).addAll rest).admins o ↔ _
    rw [ih, mem_admins_add, ← or_assoc]
    refine or_congr_left ?_
    constructor
    · rintro (⟨ids, hmem, hid⟩ | ⟨ids, rfl, hid⟩)
      · exact ⟨ids, List.mem_cons_of_mem a hmem, hid⟩
      · exact ⟨ids, List.mem_cons_self, hid⟩
    · rintro ⟨ids, hmem, hid⟩
      obtain rfl | hmem := List.mem_cons.mp hmem
      · exact .inr ⟨ids, rfl, hid⟩
      · exact .inl ⟨ids, hmem, hid⟩

/-- The submission that is added, if one is. -/
def Addition.submission? : Addition → Option Submission
  | .submission r => some r
  | _ => none

theorem submissions_addAll (s : MemoryStore) (additions : List Addition) :
    (s.addAll additions).submissions =
      s.submissions ++ additions.filterMap Addition.submission? := by
  induction additions generalizing s with
  | nil => simp [addAll]
  | cons a rest ih =>
    show ((s.add a).addAll rest).submissions = _
    rw [ih]
    cases a with
    | submission r =>
      show (s.submissions ++ [r]) ++ _ = _
      rw [List.append_assoc]
      rfl
    | _ => rfl

/-! ### Places -/

/-- What one addition touches. -/
inductive Place where
  | profile (id : ProfileId)
  | problem (code : String)
  | editorial (code : String)
  | submissions
  | admins (o : OrganizationId)
  deriving DecidableEq

def Addition.place : Addition → Place
  | .profile u => .profile u.id
  | .problem p => .problem p.code
  | .editorial e => .editorial e.problem.code
  | .submission _ => .submissions
  | .admins o _ => .admins o

theorem addAdmins_addAdmins_comm {o o' : OrganizationId} (ho : o ≠ o') (ids ids' : List ProfileId)
    (s : MemoryStore) :
    (s.addAdmins o ids).addAdmins o' ids' = (s.addAdmins o' ids').addAdmins o ids := by
  -- What is added to one organization does not depend on the other one.
  have hother : (s.addAdmins o ids).admins o' = s.admins o' := by
    rw [admins, addAdmins, SortedMap.get?_insert_of_ne ho]
    rfl
  have hother' : (s.addAdmins o' ids').admins o = s.admins o := by
    rw [admins, addAdmins, SortedMap.get?_insert_of_ne ho.symm]
    rfl
  rw [addAdmins, hother, addAdmins.eq_def (s.addAdmins o' ids'), hother']
  exact congrArg (fun m => { s with organizationAdmins := m }) (SortedMap.insert_comm ho _ _ _)

/-- Additions to different places can be made in either order. -/
theorem add_add_comm {a b : Addition} (h : a.place ≠ b.place) (s : MemoryStore) :
    (s.add a).add b = (s.add b).add a := by
  -- Additions of different kinds change different fields.
  cases a with
  | profile u =>
    cases b with
    | profile w =>
      have hid : u.id ≠ w.id := fun hid => h (congrArg Place.profile hid)
      exact congrArg (fun m => { s with profiles := m }) (SortedMap.insert_comm hid _ _ _)
    | _ => rfl
  | problem p =>
    cases b with
    | problem q =>
      have hcode : p.code ≠ q.code := fun hcode => h (congrArg Place.problem hcode)
      exact congrArg (fun m => { s with problems := m }) (SortedMap.insert_comm hcode _ _ _)
    | _ => rfl
  | editorial e =>
    cases b with
    | editorial f =>
      have hcode : e.problem.code ≠ f.problem.code :=
        fun hcode => h (congrArg Place.editorial hcode)
      exact congrArg (fun m => { s with editorials := m }) (SortedMap.insert_comm hcode _ _ _)
    | _ => rfl
  | submission r =>
    cases b with
    | submission r' => exact absurd rfl h
    | _ => rfl
  | admins o ids =>
    cases b with
    | admins o' ids' =>
      have ho : o ≠ o' := fun ho => h (congrArg Place.admins ho)
      exact addAdmins_addAdmins_comm ho ids ids' s
    | _ => rfl

/-- Anywhere in a run, neighbouring additions to different places can be swapped. -/
theorem ofAdditions_swap {a b : Addition} (h : a.place ≠ b.place)
    (before after : List Addition) :
    ofAdditions (before ++ a :: b :: after) = ofAdditions (before ++ b :: a :: after) := by
  simp only [ofAdditions, addAll, List.foldl_append, List.foldl_cons]
  rw [add_add_comm h]

end MemoryStore

open MemoryStore in
/-- **A store in memory answers from the additions it was made of.**  Profiles, problems
and editorials are those added last under their key; the list of all problems holds what
is found under the codes, once each and in ascending order of the codes; administrators
add up; and a record is made of all submissions in the order of their addition.  So
neighbouring additions to different places can be swapped. -/
theorem memory_store_answers_from_additions (additions : List Addition) :
    (∀ id : ProfileId, (ofAdditions additions).toStore.profile id =
      .ok (latest (·.profileUnder id) additions)) ∧
    (∀ code : String, (ofAdditions additions).toStore.problem code =
      .ok (latest (·.problemUnder code) additions)) ∧
    (∃ problems : List Problem, (ofAdditions additions).toStore.problems = .ok problems ∧
      problems.Pairwise (fun p q => p.code < q.code) ∧
      ∀ p, p ∈ problems ↔ ∃ q, Addition.problem q ∈ additions ∧
        (ofAdditions additions).toStore.problem q.code = .ok (some p)) ∧
    (∀ code : String, (ofAdditions additions).toStore.editorial code =
      .ok (latest (·.editorialUnder code) additions)) ∧
    (∀ o : OrganizationId, ∃ admins, (ofAdditions additions).toStore.admins o = .ok admins ∧
      ∀ id, id ∈ admins ↔ ∃ ids, Addition.admins o ids ∈ additions ∧ id ∈ ids) ∧
    (∀ (id : ProfileId) (p : Problem), (ofAdditions additions).toStore.history id p =
      .ok (.ofSubmissions (additions.filterMap (·.submission?)) id p)) ∧
    (∀ (before : List Addition) (a b : Addition) (after : List Addition),
      additions = before ++ a :: b :: after → a.place ≠ b.place →
        (ofAdditions (before ++ b :: a :: after)).toStore = (ofAdditions additions).toStore) := by
  refine ⟨?_, ?_, ?_, ?_, ?_, ?_, ?_⟩
  · intro id
    exact congrArg Except.ok (get?_profiles_ofAdditions additions id)
  · intro code
    exact congrArg Except.ok (get?_problems_ofAdditions additions code)
  · refine ⟨_, rfl, pairwise_values additions, fun p => ?_⟩
    rw [mem_values_iff]
    constructor
    · intro hget
      exact ⟨p, mem_of_get?_problems hget, congrArg Except.ok hget⟩
    · rintro ⟨q, -, hfound⟩
      have hget := Except.ok.inj hfound
      exact (code_of_get?_problems hget).symm ▸ hget
  · intro code
    exact congrArg Except.ok (get?_editorials_ofAdditions additions code)
  · intro o
    refine ⟨_, rfl, fun id => ?_⟩
    rw [ofAdditions, mem_admins_addAll]
    exact or_iff_left (SortedSet.not_mem_empty id)
  · intro id p
    show Except.ok (History.ofSubmissions (empty.addAll additions).submissions id p) = _
    rw [submissions_addAll]
    rfl
  · rintro before a b after rfl hplace
    exact congrArg toStore (ofAdditions_swap hplace before after).symm

namespace MemoryStore

def sumProblem : Problem where
  id := 1
  code := "sum"
  name := "Sum"
  points := .zero
  isPublic := false
  isOrganizationPrivate := false
  authors := ∅
  curators := ∅
  testers := ∅
  organizations := ∅
  bannedUsers := ∅
  code_length := by decide
  code_chars := by decide
  points_score := Problem.isScore_zero

def publicSumProblem : Problem := { sumProblem with isPublic := true }

/-- A problem that is made public later, and administrators named in two steps. -/
def sumAdditions : List Addition := [
  .problem sumProblem,
  .admins 5 [6],
  .submission ⟨7, 1, .accepted, .zero, "PY3"⟩,
  .problem publicSumProblem,
  .admins 5 [8, 6]]

end MemoryStore

open MemoryStore in
theorem memory_store_answers_from_additions_swapped :
    (ofAdditions sumAdditions).toStore.problem "sum" = .ok (some publicSumProblem) ∧
    (∃ admins, (ofAdditions sumAdditions).toStore.admins 5 = .ok admins ∧
      6 ∈ admins ∧ 8 ∈ admins ∧ 7 ∉ admins) ∧
    (ofAdditions ([.problem sumProblem, .submission ⟨7, 1, .accepted, .zero, "PY3"⟩] ++
        .admins 5 [6] :: [.problem publicSumProblem, .admins 5 [8, 6]])).toStore =
      (ofAdditions sumAdditions).toStore := by
  obtain ⟨-, hproblem, -, -, hadmins, -, hswap⟩ :=
    memory_store_answers_from_additions sumAdditions
  obtain ⟨admins, hfound, hmem⟩ := hadmins 5
  refine ⟨hproblem "sum", ⟨admins, hfound, ?_, ?_, ?_⟩, ?_⟩
  · exact (hmem 6).mpr ⟨[6], by simp [sumAdditions], by decide⟩
  · exact (hmem 8).mpr ⟨[8, 6], by simp [sumAdditions], by decide⟩
  · rw [hmem]
    simp [sumAdditions]
  · exact hswap [.problem sumProblem] (.admins 5 [6])
      (.submission ⟨7, 1, .accepted, .zero, "PY3"⟩) _ rfl (by decide)

end JudgePolicy
