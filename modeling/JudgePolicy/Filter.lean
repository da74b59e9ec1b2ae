/-
Filters: conditions on problems alone, with no viewer left in them.

`Filter.selects` says what a filter means.  The constructing functions
`constant`, `ofOrganizations`, `negation`, `conjunction` and `disjunction` fold
constants while they build:

* `selects_constant`, …, `selects_disjunction` — folding never changes the
  meaning.
-/
import JudgePolicy.Problem
namespace JudgePolicy

/-- A condition on problems. -/
inductive Filter where
  | always
  | never
  | isPublic
  | isOrganizationPrivate
  | authoredBy (id : ProfileId)
  | curatedBy (id : ProfileId)
  | testedBy (id : ProfileId)
  /-- Problems of at least one of these organizations. -/
  | inOrganizations (ids : SortedSet OrganizationId)
  | not (part : Filter)
  | all (parts : List Filter)
  | any (parts : List Filter)

namespace Filter

instance : Inhabited Filter := ⟨always⟩

/-! ### Meaning -/

mutual

/-- Whether a filter selects a problem. -/
def selects : Filter → Problem → Bool
  | always, _ => true
  | never, _ => false
  | isPublic, p => p.isPublic
  | isOrganizationPrivate, p => p.isOrganizationPrivate
  | authoredBy id, p => decide (id ∈ p.authors)
  | curatedBy id, p => decide (id ∈ p.curators)
  | testedBy id, p => decide (id ∈ p.testers)
  | inOrganizations ids, p => ids.meets p.organizations
  | not part, p => !selects part p
  | all parts, p => allSelect parts p
  | any parts, p => anySelects parts p

def allSelect : List Filter → Problem → Bool
  | [], _ => true
  | f :: rest, p => selects f p && allSelect rest p

def anySelects : List Filter → Problem → Bool
  | [], _ => false
  | f :: rest, p => selects f p || anySelects rest p

end

theorem allSelect_eq (parts : List Filter) (p : Problem) :
    allSelect parts p = parts.all (selects · p) := by
  induction parts with
  | nil => rfl
  | cons f rest ih => simp [allSelect, ih]

theorem anySelects_eq (parts : List Filter) (p : Problem) :
    anySelects parts p = parts.any (selects · p) := by
  induction parts with
  | nil => rfl
  | cons f rest ih => simp [anySelects, ih]

/-- The problems of a list that a filter selects, in their order. -/
def select (f : Filter) (problems : List Problem) : List Problem :=
  problems.filter (selects f)

/-! ### Folding constructors -/

def isAlways : Filter → Bool
  | always => true
  | _ => false

def isNever : Filter → Bool
  | never => true
  | _ => false

/-- The filter of a truth value. -/
def constant (b : Bool) : Filter := if b then always else never

/-- The filter of some organizations; of none, `never`. -/
def ofOrganizations (ids : SortedSet OrganizationId) : Filter :=
  if ids.isEmpty then never else inOrganizations ids

/-- The opposite filter; two negations cancel. -/
def negation : Filter → Filter
  | always => never
  | never => always
  | not part => part
  | f => not f

/-- All of some filters: without those that are `always`, and `never` as soon
as one is. -/
def conjunction (parts : List Filter) : Filter :=
  if parts.any isNever then never
  else
    match parts.filter (!isAlways ·) with
    | [] => always
    | [f] => f
    | kept => all kept

/-- One of some filters: without those that are `never`, and `always` as soon as
one is. -/
def disjunction (parts : List Filter) : Filter :=
  if parts.any isAlways then always
  else
    match parts.filter (!isNever ·) with
    | [] => never
    | [f] => f
    | kept => any kept

theorem selects_of_isAlways {f : Filter} (h : f.isAlways = true) (p : Problem) :
    f.selects p = true := by
  cases f <;> simp_all [isAlways, selects]

theorem selects_of_isNever {f : Filter} (h : f.isNever = true) (p : Problem) :
    f.selects p = false := by
  cases f <;> simp_all [isNever, selects]

@[simp] theorem selects_constant (b : Bool) (p : Problem) : (constant b).selects p = b := by
  cases b <;> rfl

@[simp] theorem selects_ofOrganizations (ids : SortedSet OrganizationId) (p : Problem) :
    (ofOrganizations ids).selects p = ids.meets p.organizations := by
  rw [ofOrganizations]
  split
  · next h =>
    have : ids.toList = [] := by simpa [SortedSet.isEmpty] using h
    simp [selects, SortedSet.meets, this]
  · rfl

@[simp] theorem selects_negation (f : Filter) (p : Problem) :
    f.negation.selects p = !f.selects p := by
  cases f <;> simp [negation, selects]

theorem all_filter_not_isAlways (parts : List Filter) (p : Problem) :
    (parts.filter (!isAlways ·)).all (selects · p) = parts.all (selects · p) := by
  induction parts with
  | nil => rfl
  | cons f rest ih =>
    cases h : f.isAlways with
    | true => simp [h, ih, selects_of_isAlways h]
    | false => simp [h, ih]

theorem any_filter_not_isNever (parts : List Filter) (p : Problem) :
    (parts.filter (!isNever ·)).any (selects · p) = parts.any (selects · p) := by
  induction parts with
  | nil => rfl
  | cons f rest ih =>
    cases h : f.isNever with
    | true => simp [h, ih, selects_of_isNever h]
    | false => simp [h, ih]

@[simp] theorem selects_conjunction (parts : List Filter) (p : Problem) :
    (conjunction parts).selects p = parts.all (selects · p) := by
  rw [conjunction]
  split
  · next h =>
    obtain ⟨f, hf, hn⟩ := List.any_eq_true.1 h
    rw [eq_comm, selects, List.all_eq_false]
    exact ⟨f, hf, by simp [selects_of_isNever hn]⟩
  · rw [← all_filter_not_isAlways]
    split <;> simp_all [selects, allSelect_eq]

@[simp] theorem selects_disjunction (parts : List Filter) (p : Problem) :
    (disjunction parts).selects p = parts.any (selects · p) := by
  rw [disjunction]
  split
  · next h =>
    obtain ⟨f, hf, hn⟩ := List.any_eq_true.1 h
    rw [eq_comm, selects, List.any_eq_true]
    exact ⟨f, hf, selects_of_isAlways hn p⟩
  · rw [← any_filter_not_isNever]
    split <;> simp_all [selects, anySelects_eq]

end Filter

end JudgePolicy
