/-
What a store in memory answers after a run of additions.

Under each key, the *latest* addition that puts something there counts, whatever
came before it and whatever else was added afterwards:

* `lookup_addAll` — if one addition either answers a lookup or leaves it as it
  was, then a run of additions answers it by the latest one that does;
* `get?_profiles_ofAdditions`, `get?_problems_ofAdditions`, `get?_editorials_ofAdditions` —
  so profiles, problems and editorials are found as they were added last;
* `mem_values_iff`, `pairwise_values` — and the list of all problems holds each of
  them once, in ascending order of the codes.

Design notes: a problem is put under its own code, so the key of an entry is never
needed to tell which problem it is about.
-/
import JudgePolicy.Store.Memory
namespace JudgePolicy

namespace MemoryStore

/-- The store that a run of additions makes of the empty one. -/
def ofAdditions (additions : List Addition) : MemoryStore := empty.addAll additions

/-- The answer of the latest addition that gives one. -/
def latest {α : Type} (answers : Addition → Option α) (additions : List Addition) : Option α :=
  additions.reverse.findSome? answers

theorem latest_cons {α : Type} (answers : Addition → Option α) (a : Addition)
    (rest : List Addition) :
    latest answers (a :: rest) = (latest answers rest).or (answers a) := by
  rw [latest, List.reverse_cons, List.findSome?_append, List.findSome?_singleton, latest]

theorem latest_eq_none_iff {α : Type} {answers : Addition → Option α}
    {additions : List Addition} :
    latest answers additions = none ↔ ∀ a ∈ additions, answers a = none := by
  rw [latest, List.findSome?_eq_none_iff]
  simp only [List.mem_reverse]

/-- **Runs of additions.**  Where each addition answers a lookup or leaves it as it
was, the latest answer counts, and the store from before if there is none. -/
theorem lookup_addAll {α : Type} (lookup : MemoryStore → Option α)
    {answers : Addition → Option α}
    (step : ∀ s a, lookup (s.add a) = (answers a).or (lookup s)) (s : MemoryStore)
    (additions : List Addition) :
    lookup (s.addAll additions) = (latest answers additions).or (lookup s) := by
  induction additions generalizing s with
  | nil => rfl
  | cons a rest ih =>
    show lookup ((s.add a).addAll rest) = _
    rw [ih, step, latest_cons, Option.or_assoc]

theorem lookup_ofAdditions {α : Type} (lookup : MemoryStore → Option α)
    {answers : Addition → Option α}
    (step : ∀ s a, lookup (s.add a) = (answers a).or (lookup s))
    (empty : lookup empty = none) (additions : List Addition) :
    lookup (ofAdditions additions) = latest answers additions := by
  rw [ofAdditions, lookup_addAll lookup step, empty, Option.or_none]

namespace Addition

/-- The profile that an addition puts under an identifier. -/
def profileUnder (id : ProfileId) : Addition → Option Profile
  | .profile u => if u.id = id then some u else none
  | _ => none

/-- The problem that an addition puts under a code. -/
def problemUnder (code : String) : Addition → Option Problem
  | .problem p => if p.code = code then some p else none
  | _ => none

/-- The editorial that an addition puts under a code, that of its problem. -/
def editorialUnder (code : String) : Addition → Option Editorial
  | .editorial e => if e.problem.code = code then some e else none
  | _ => none

theorem problemUnder_eq_some_iff {code : String} {a : Addition} {p : Problem} :
    a.problemUnder code = some p ↔ a = .problem p ∧ p.code = code := by
  cases a with
  | problem q =>
    rw [problemUnder, Option.ite_none_right_eq_some, Option.some.injEq, Addition.problem.injEq]
    constructor
    · rintro ⟨hcode, rfl⟩
      exact ⟨rfl, hcode⟩
    · rintro ⟨rfl, hcode⟩
      exact ⟨hcode, rfl⟩
  | _ => simp [problemUnder]

theorem profileUnder_eq_none_iff {id : ProfileId} {a : Addition} :
    a.profileUnder id = none ↔ ∀ u, a = .profile u → u.id ≠ id := by
  cases a with
  | profile w => simp [profileUnder]
  | _ => simp [profileUnder]

end Addition

/-! ### Profiles -/

theorem get?_profiles_add (id : ProfileId) (s : MemoryStore) (a : Addition) :
    (s.add a).profiles.get? id = (a.profileUnder id).or (s.profiles.get? id) := by
  cases a with
  | profile u => exact SortedMap.get?_insert_eq_or u.id id u s.profiles
  | _ => rfl

theorem get?_profiles_ofAdditions (additions : List Addition) (id : ProfileId) :
    (ofAdditions additions).profiles.get? id = latest (·.profileUnder id) additions :=
  lookup_ofAdditions (·.profiles.get? id) (get?_profiles_add id) rfl additions

/-- No profile is found exactly if none was added. -/
theorem get?_profiles_eq_none_iff {additions : List Addition} {id : ProfileId} :
    (ofAdditions additions).profiles.get? id = none ↔
      ∀ u, Addition.profile u ∈ additions → u.id ≠ id := by
  rw [get?_profiles_ofAdditions, latest_eq_none_iff]
  simp only [Addition.profileUnder_eq_none_iff]
  constructor
  · intro h u hu
    exact h _ hu u rfl
  · rintro h a ha u rfl
    exact h u ha

/-! ### Problems -/

theorem get?_problems_add (code : String) (s : MemoryStore) (a : Addition) :
    (s.add a).problems.get? code = (a.problemUnder code).or (s.problems.get? code) := by
  cases a with
  | problem p => exact SortedMap.get?_insert_eq_or p.code code p s.problems
  | _ => rfl

theorem get?_problems_ofAdditions (additions : List Addition) (code : String) :
    (ofAdditions additions).problems.get? code = latest (·.problemUnder code) additions :=
  lookup_ofAdditions (·.problems.get? code) (get?_problems_add code) rfl additions

/-! ### Editorials -/

theorem get?_editorials_add (code : String) (s : MemoryStore) (a : Addition) :
    (s.add a).editorials.get? code = (a.editorialUnder code).or (s.editorials.get? code) := by
  cases a with
  | editorial e => exact SortedMap.get?_insert_eq_or e.problem.code code e s.editorials
  | _ => rfl

theorem get?_editorials_ofAdditions (additions : List Addition) (code : String) :
    (ofAdditions additions).editorials.get? code = latest (·.editorialUnder code) additions :=
  lookup_ofAdditions (·.editorials.get? code) (get?_editorials_add code) rfl additions

/-! ### The list of all problems -/

/-- A problem is found under no code but its own. -/
theorem code_of_get?_problems {additions : List Addition} {code : String} {p : Problem}
    (h : (ofAdditions additions).problems.get? code = some p) : p.code = code := by
  rw [get?_problems_ofAdditions] at h
  obtain ⟨a, -, ha⟩ := List.exists_of_findSome?_eq_some h
  exact (Addition.problemUnder_eq_some_iff.mp ha).2

/-- A problem that is found was added. -/
theorem mem_of_get?_problems {additions : List Addition} {code : String} {p : Problem}
    (h : (ofAdditions additions).problems.get? code = some p) :
    Addition.problem p ∈ additions := by
  rw [get?_problems_ofAdditions] at h
  obtain ⟨a, ha, hunder⟩ := List.exists_of_findSome?_eq_some h
  obtain ⟨rfl, -⟩ := Addition.problemUnder_eq_some_iff.mp hunder
  exact List.mem_reverse.mp ha

/-- The list of all problems holds what is found under the codes. -/
theorem mem_values_iff {additions : List Addition} {p : Problem} :
    p ∈ (ofAdditions additions).problems.values ↔
      (ofAdditions additions).problems.get? p.code = some p := by
  rw [SortedMap.values, List.mem_map]
  constructor
  · rintro ⟨⟨code, q⟩, hentry, rfl⟩
    have hget := SortedMap.mem_entries_iff.mp hentry
    obtain rfl := code_of_get?_problems hget
    exact hget
  · intro hget
    exact ⟨(p.code, p), SortedMap.mem_entries_iff.mpr hget, rfl⟩

theorem pairwise_values (additions : List Addition) :
    (ofAdditions additions).problems.values.Pairwise fun p q => p.code < q.code := by
  rw [SortedMap.values, List.pairwise_map]
  refine (ofAdditions additions).problems.ascending.imp_of_mem ?_
  rintro ⟨c, p⟩ ⟨d, q⟩ hp hq hlt
  -- The keys are in order, and each is the code of its problem.
  obtain rfl := code_of_get?_problems (SortedMap.mem_entries_iff.mp hp)
  obtain rfl := code_of_get?_problems (SortedMap.mem_entries_iff.mp hq)
  exact compareOfLessAndEq_eq_lt.mp hlt

end MemoryStore

end JudgePolicy
