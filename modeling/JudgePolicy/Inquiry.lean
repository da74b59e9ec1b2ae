/-
Inquiries: questions by profile and code, answered from a store.

An inquiry looks up what a decision needs and then decides.  It stops at the
first lookup that fails or finds nothing; without all it needs, it gives no
decision.  The `Inquiry` monad keeps, in all cases, the lookups made and the
events reported, in their order.

* `result_bind` — a later step runs only on the value of an earlier one;
* `exists_of_result_bind` — an answer of two steps comes from an answer of the first;
* `bind_of_ok` — lookups and events are kept in the order of the steps;
* `bind_of_error` — after a failure nothing is looked up or reported;
* `bind_assoc` — it does not matter how the steps are grouped.
-/
import JudgePolicy.Audit
import JudgePolicy.Store
namespace JudgePolicy

/-- The course of an inquiry and its result. -/
structure Inquiry (α : Type) where
  lookups : List Lookup
  events : List Event
  result : Except Failure α

namespace Inquiry

variable {α β : Type}

instance : Monad Inquiry where
  pure a := ⟨[], [], .ok a⟩
  bind x f :=
    match x.result with
    | .error e => ⟨x.lookups, x.events, .error e⟩
    | .ok a => ⟨x.lookups ++ (f a).lookups, x.events ++ (f a).events, (f a).result⟩

theorem bind_of_ok {x : Inquiry α} {a : α} (h : x.result = .ok a) (f : α → Inquiry β) :
    x >>= f = ⟨x.lookups ++ (f a).lookups, x.events ++ (f a).events, (f a).result⟩ := by
  simp only [bind, h]

theorem bind_of_error {x : Inquiry α} {e : Failure} (h : x.result = .error e)
    (f : α → Inquiry β) : x >>= f = ⟨x.lookups, x.events, .error e⟩ := by
  simp only [bind, h]

/-- A later step runs only on the value of an earlier one. -/
theorem result_bind (x : Inquiry α) (f : α → Inquiry β) :
    (x >>= f).result = x.result.bind fun a => (f a).result := by
  cases h : x.result with
  | ok a => rw [bind_of_ok h]; rfl
  | error e => rw [bind_of_error h]; rfl

theorem exists_of_result_bind {x : Inquiry α} {f : α → Inquiry β} {b : β}
    (h : (x >>= f).result = .ok b) : ∃ a, x.result = .ok a ∧ (f a).result = .ok b := by
  rw [result_bind] at h
  cases hx : x.result with
  | error e =>
    rw [hx] at h
    cases h
  | ok a =>
    rw [hx] at h
    exact ⟨a, rfl, h⟩

protected theorem bind_assoc {γ : Type} (x : Inquiry α) (f : α → Inquiry β) (g : β → Inquiry γ) :
    x >>= f >>= g = x >>= fun a => f a >>= g := by
  cases hx : x.result with
  | error e => rw [bind_of_error hx, bind_of_error hx, bind_of_error rfl]
  | ok a =>
    rw [bind_of_ok hx, bind_of_ok hx]
    cases hf : (f a).result with
    | error e => rw [bind_of_error hf, bind_of_error rfl]
    | ok b =>
      rw [bind_of_ok hf, bind_of_ok rfl]
      simp only [List.append_assoc]

/-- One lookup, whose failure ends the inquiry. -/
def look (l : Lookup) (answer : Except StoreError α) : Inquiry α :=
  ⟨[l], [], answer.mapError Failure.store⟩

/-- What was found, or the end of the inquiry. -/
def require (missing : Missing) : Option α → Inquiry α
  | some a => pure a
  | none => ⟨[], [], .error (.notFound missing)⟩

/-- A decision and its events. -/
def decided (x : Audited α) : Inquiry α := ⟨[], x.events, .ok x.value⟩

end Inquiry

namespace Store

open Inquiry

/-- The viewer with a profile's identifier; without one, the anonymous viewer. -/
def viewer (s : Store) : Option ProfileId → Inquiry Viewer
  | none => pure .anonymous
  | some id => do
    let found ← look (.profile id) (s.profile id)
    let profile ← require (.profile id) found
    return .authenticated profile

/-- The profile with those of some organizations added that it administers. -/
def withAdministered (s : Store) : List OrganizationId → Profile → Inquiry Profile
  | [], p => pure p
  | o :: rest, p => do
    let admins ← look (.admins o) (s.admins o)
    let p := if p.id ∈ admins then { p with administered := p.administered.insert o } else p
    s.withAdministered rest p

/-- The viewer, knowing which of the problem's organizations it administers. -/
def viewerFor (s : Store) (id : Option ProfileId) (problem : Problem) : Inquiry Viewer := do
  match ← s.viewer id with
  | .anonymous => return .anonymous
  | .authenticated p =>
    let p ← s.withAdministered problem.organizations.toList p
    return .authenticated p

def problemNamed (s : Store) (code : String) : Inquiry Problem := do
  let found ← look (.problem code) (s.problem code)
  require (.problem code) found

def editorialOf (s : Store) (code : String) : Inquiry Editorial := do
  let found ← look (.editorial code) (s.editorial code)
  require (.editorial code) found

/-- All three decisions about the problem with a code. -/
def problemAccess (s : Store) (id : Option ProfileId) (code : String) : Inquiry Access := do
  let problem ← s.problemNamed code
  let viewer ← s.viewerFor id problem
  decided (Audit.access viewer problem)

/-- Whether the editorial of the problem with a code may be read. -/
def editorialAccess (s : Store) (now : Instant) (id : Option ProfileId) (code : String) :
    Inquiry Bool := do
  let editorial ← s.editorialOf code
  let viewer ← s.viewer id
  decided (Audit.canRead viewer editorial now)

/-- The record of a viewer on a problem; nobody's record is unsolved. -/
def historyOf (s : Store) (viewer : Viewer) (problem : Problem) : Inquiry History :=
  match viewer.id? with
  | none => pure History.unsolved
  | some id => look (.history id problem.code) (s.history id problem)

/-- What may be done with the votes on the problem with a code. -/
def votePermission (s : Store) (now : Instant) (id : Option ProfileId) (code : String) :
    Inquiry Voting.Decision := do
  let problem ← s.problemNamed code
  let viewer ← s.viewer id
  let history ← s.historyOf viewer problem
  decided (Audit.voting viewer problem history now)

/-- The problems on which a rule grants, in the order of the store. -/
def problemsUnder (s : Store) (r : Rule) (id : Option ProfileId) : Inquiry (List Problem) := do
  let viewer ← s.viewer id
  let filter ← decided (Audit.filter viewer r)
  let problems ← look .problems s.problems
  return filter.select problems

/-- The problems that may be seen. -/
def visibleProblems (s : Store) (id : Option ProfileId) : Inquiry (List Problem) :=
  s.problemsUnder .visibility id

/-- The problems that may be edited. -/
def editableProblems (s : Store) (id : Option ProfileId) : Inquiry (List Problem) :=
  s.problemsUnder .edit id

end Store

end JudgePolicy
