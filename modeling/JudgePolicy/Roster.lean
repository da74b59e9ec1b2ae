/-
Rosters: lists of people in order of first mention, without repeats.

* `mem_addAll` — adding people adds exactly them;
* `ids_addAll` — those already listed keep their places, and the others follow
  in order of first mention.
-/
import JudgePolicy.Profile
namespace JudgePolicy

/-- A list of profiles in which none occurs twice. -/
structure Roster where
  ids : List ProfileId
  nodup : ids.Nodup
  deriving DecidableEq

namespace Roster

instance : EmptyCollection Roster := ⟨⟨[], .nil⟩⟩

instance : Inhabited Roster := ⟨∅⟩

instance : Membership ProfileId Roster := ⟨fun r id => id ∈ r.ids⟩

instance (id : ProfileId) (r : Roster) : Decidable (id ∈ r) :=
  inferInstanceAs (Decidable (id ∈ r.ids))

@[simp] theorem mem_ids {id : ProfileId} {r : Roster} : id ∈ r.ids ↔ id ∈ r := Iff.rfl

@[simp] theorem ids_empty : (∅ : Roster).ids = [] := rfl

@[simp] theorem not_mem_empty (id : ProfileId) : id ∉ (∅ : Roster) := by
  simp [← mem_ids]

/-- Adds a person at the end, unless listed already. -/
def add (r : Roster) (id : ProfileId) : Roster :=
  if h : id ∈ r.ids then r
  else ⟨r.ids ++ [id], by
    rw [List.nodup_append]
    exact ⟨r.nodup, by simp, by rintro a ha b hb rfl; simp at hb; exact h (hb ▸ ha)⟩⟩

/-- Adds people one after the other. -/
def addAll (r : Roster) (ids : List ProfileId) : Roster := ids.foldl add r

@[simp] theorem mem_add {r : Roster} {id x : ProfileId} :
    x ∈ r.add id ↔ x ∈ r ∨ x = id := by
  rw [add]
  split
  · next h =>
    constructor
    · exact Or.inl
    · rintro (hx | rfl)
      · exact hx
      · exact h
  · simp [← mem_ids]

@[simp] theorem mem_addAll {r : Roster} {ids : List ProfileId} {x : ProfileId} :
    x ∈ r.addAll ids ↔ x ∈ r ∨ x ∈ ids := by
  induction ids generalizing r with
  | nil => simp [addAll]
  | cons id rest ih =>
    have step : r.addAll (id :: rest) = (r.add id).addAll rest := rfl
    rw [step, ih, mem_add, List.mem_cons, or_assoc]

theorem addAll_append (r : Roster) (ids others : List ProfileId) :
    r.addAll (ids ++ others) = (r.addAll ids).addAll others :=
  List.foldl_append

/-- The people of a list that are not in another one, in order of first
mention. -/
def newcomers (known : List ProfileId) : List ProfileId → List ProfileId
  | [] => []
  | id :: rest =>
    if id ∈ known then newcomers known rest
    else id :: newcomers (known ++ [id]) rest

/-- The newcomers are those that are left when the known ones are taken out, each at
its first mention. -/
theorem newcomers_eq_eraseDups (known ids : List ProfileId) :
    newcomers known ids = (ids.removeAll known).eraseDups := by
  induction ids generalizing known with
  | nil => rfl
  | cons id rest ih =>
    rw [newcomers, List.cons_removeAll]
    by_cases h : id ∈ known
    · rw [if_pos h, ih, if_neg (by simpa using h)]
    · -- From here on `id` is known, which is to say that it is taken out of the rest.
      have hrest : rest.removeAll (known ++ [id]) =
          (rest.removeAll known).filter fun x => !x == id := by
        rw [List.removeAll, List.removeAll, List.filter_filter]
        exact List.filter_congr fun x _ => by by_cases hx : x = id <;> simp [hx]
      rw [if_neg h, ih, if_pos (by simpa using h), List.eraseDups_cons, hrest]

/-- Newcomers are not taken for known, nor for repeats. -/
theorem newcomers_newcomers (known ids : List ProfileId) :
    newcomers known (newcomers known ids) = newcomers known ids := by
  induction ids generalizing known with
  | nil => rfl
  | cons id rest ih =>
    by_cases h : id ∈ known
    · rw [newcomers, if_pos h, ih]
    · rw [newcomers, if_neg h, newcomers, if_neg h, ih]

theorem mem_newcomers {known ids : List ProfileId} {x : ProfileId} :
    x ∈ newcomers known ids ↔ x ∈ ids ∧ x ∉ known := by
  rw [newcomers_eq_eraseDups, List.mem_eraseDups, List.removeAll]
  simp

/-- Those already listed keep their places; the others follow in order of first
mention. -/
theorem ids_addAll (r : Roster) (ids : List ProfileId) :
    (r.addAll ids).ids = r.ids ++ newcomers r.ids ids := by
  induction ids generalizing r with
  | nil => simp [addAll, newcomers]
  | cons id rest ih =>
    have step : r.addAll (id :: rest) = (r.add id).addAll rest := rfl
    rw [step, ih, add, newcomers]
    by_cases h : id ∈ r.ids <;> simp [h]

end Roster

end JudgePolicy
