/-
Lists and single inquiries agree.

An inquiry about one problem looks up which of the problem's organizations the
viewer administers; an inquiry for a list does not.  Since no rule asks for
administrators, this changes no answer:

* `result_problemAccess` — the access reported for a stored problem is that of the
  plain viewer;
* `result_problemsUnder` — a list holds the stored problems on which the plain
  viewer is granted the rule;
* `lists_agree_with_single_inquiries` — so the lists hold the problems that are
  reported accessible or editable one by one, and an unknown profile is reported
  by lists and single inquiries alike.

Design notes: `MemoryStore.viewer` says without any lookup who an identifier
stands for.  Both kinds of inquiry are brought to the form "the viewer, and then a
function of the viewer", so a missing profile needs no case of its own.
-/
import JudgePolicy.Inquiry
import JudgePolicy.Proofs.Access.Noninterference
import JudgePolicy.Proofs.Store.Additions
namespace JudgePolicy

/-- Whether an inquiry ends with an answer that passes a test. -/
def Inquiry.reports {α : Type} (x : Inquiry α) (test : α → Bool) : Bool :=
  match x.result with
  | .ok a => test a
  | .error _ => false

theorem Inquiry.reports_of_ok {α : Type} {x : Inquiry α} {a : α} (h : x.result = .ok a)
    (test : α → Bool) : x.reports test = test a := by
  rw [reports, h]

namespace MemoryStore

variable {s : MemoryStore}

/-- Whom an identifier stands for. -/
def viewer (s : MemoryStore) : Option ProfileId → Except Failure Viewer
  | none => .ok .anonymous
  | some id =>
    match s.profiles.get? id with
    | some u => .ok (.authenticated u)
    | none => .error (.notFound (.profile id))

theorem result_viewer (s : MemoryStore) (id : Option ProfileId) :
    (s.toStore.viewer id).result = s.viewer id := by
  cases id with
  | none => rfl
  | some id =>
    show (Inquiry.require (.profile id) (s.profiles.get? id) >>=
      fun u => pure (.authenticated u)).result = s.viewer (some id)
    rw [viewer]
    cases s.profiles.get? id with
    | none => rfl
    | some u => rfl

/-! ### Administrators -/

/-- Looking up administrators always succeeds, and leaves the user's standing. -/
theorem result_withAdministered (s : MemoryStore) (os : List OrganizationId) (u : Profile) :
    ∃ w, (s.toStore.withAdministered os u).result = .ok w ∧ u.SameStanding w := by
  induction os generalizing u with
  | nil => exact ⟨u, rfl, .refl u⟩
  | cons o rest ih =>
    -- One lookup changes nothing but the administered organizations.
    obtain ⟨v, huv, hstep⟩ : ∃ v, u.SameStanding v ∧
        (s.toStore.withAdministered (o :: rest) u).result =
          (s.toStore.withAdministered rest v).result := by
      refine ⟨if u.id ∈ s.admins o then { u with administered := u.administered.insert o } else u,
        ?_, rfl⟩
      split
      · exact ⟨rfl, rfl, rfl⟩
      · exact .refl u
    obtain ⟨w, hw, hvw⟩ := ih v
    exact ⟨w, hstep.trans hw, huv.trans hvw⟩

/-- The viewer for a problem is given the same access as the plain viewer. -/
theorem result_viewerFor {id : Option ProfileId} {v : Viewer} (hv : s.viewer id = .ok v)
    (p : Problem) :
    ∃ w, (s.toStore.viewerFor id p).result = .ok w ∧ w.accessTo p = v.accessTo p := by
  rw [Store.viewerFor, Inquiry.result_bind, result_viewer, hv]
  cases v with
  | anonymous => exact ⟨.anonymous, rfl, rfl⟩
  | authenticated u =>
    obtain ⟨w, hw, huw⟩ := s.result_withAdministered p.organizations.toList u
    refine ⟨.authenticated w, ?_, (huw.accessTo_eq (.refl p)).symm⟩
    show ((s.toStore.withAdministered p.organizations.toList u) >>= _).result = _
    rw [Inquiry.result_bind, hw]
    rfl

/-! ### The two kinds of inquiry -/

/-- The access reported for a stored problem. -/
theorem result_problemAccess {code : String} {p : Problem} (hp : s.problems.get? code = some p)
    (id : Option ProfileId) :
    (s.toStore.problemAccess id code).result = (s.viewer id).map (·.accessTo p) := by
  have hnamed : (s.toStore.problemNamed code).result = .ok p := by
    show (Inquiry.require (.problem code) (s.problems.get? code)).result = .ok p
    rw [hp]
    rfl
  rw [Store.problemAccess, Inquiry.result_bind, hnamed]
  show ((s.toStore.viewerFor id p) >>= _).result = _
  rw [Inquiry.result_bind]
  cases hv : s.viewer id with
  | error e =>
    rw [Store.viewerFor, Inquiry.result_bind, result_viewer, hv]
    rfl
  | ok v =>
    obtain ⟨w, hw, haccess⟩ := result_viewerFor hv p
    rw [hw]
    show Except.ok (w.accessTo p) = Except.ok (v.accessTo p)
    rw [haccess]

/-- The problems listed under a rule. -/
theorem result_problemsUnder (s : MemoryStore) (r : Rule) (id : Option ProfileId) :
    (s.toStore.problemsUnder r id).result =
      (s.viewer id).map fun v => s.problems.values.filter (v.may r) := by
  rw [Store.problemsUnder, Inquiry.result_bind, result_viewer]
  cases s.viewer id with
  | error e => rfl
  | ok v =>
    have hselects : (v.filter r).selects = v.may r := funext (v.selects_filter r)
    show Except.ok ((v.filter r).select s.problems.values) = _
    rw [Filter.select, hselects]
    rfl

/-- A list of problems is made of what is reported about them one by one. -/
theorem result_problemsUnder_of_viewer {additions : List Addition} {id : Option ProfileId}
    {v : Viewer} (hv : (ofAdditions additions).viewer id = .ok v) {r : Rule}
    {part : Access → Bool} (hpart : ∀ p, part (v.accessTo p) = v.may r p) :
    ((ofAdditions additions).toStore.problemsUnder r id).result =
      .ok ((ofAdditions additions).problems.values.filter fun p =>
        ((ofAdditions additions).toStore.problemAccess id p.code).reports part) := by
  rw [result_problemsUnder, hv]
  refine congrArg Except.ok (List.filter_congr fun p hp => ?_)
  have haccess := result_problemAccess (mem_values_iff.mp hp) id
  rw [hv] at haccess
  rw [Inquiry.reports_of_ok haccess, hpart]

/-! ### Known and unknown profiles -/

theorem exists_viewer {additions : List Addition} {id : Option ProfileId}
    (h : ∀ i, id = some i → ∃ u, Addition.profile u ∈ additions ∧ u.id = i) :
    ∃ v, (ofAdditions additions).viewer id = .ok v := by
  cases id with
  | none => exact ⟨.anonymous, rfl⟩
  | some i =>
    obtain ⟨u, hu, hid⟩ := h i rfl
    rw [viewer]
    cases hget : (ofAdditions additions).profiles.get? i with
    | some w => exact ⟨.authenticated w, rfl⟩
    | none => exact absurd hid (get?_profiles_eq_none_iff.mp hget u hu)

theorem viewer_of_unknown {additions : List Addition} {i : ProfileId}
    (h : ∀ u, Addition.profile u ∈ additions → u.id ≠ i) :
    (ofAdditions additions).viewer (some i) = .error (.notFound (.profile i)) := by
  rw [viewer, get?_profiles_eq_none_iff.mpr h]

end MemoryStore

open MemoryStore in
/-- **Lists and single inquiries agree.**  Of the problems stored by a run of
additions, in ascending order of their codes, the lists of a viewer hold those that
single inquiries report as accessible or editable; these inquiries never fail.  For
a profile that was never added, lists and single inquiries report just that. -/
theorem lists_agree_with_single_inquiries (additions : List Addition) :
    ∃ stored : List Problem,
      stored.Pairwise (fun p q => p.code < q.code) ∧
      (∀ p, p ∈ stored ↔ latest (·.problemUnder p.code) additions = some p) ∧
      (∀ id : Option ProfileId,
        (∀ i, id = some i → ∃ u, Addition.profile u ∈ additions ∧ u.id = i) →
          (∀ p ∈ stored, ∃ access,
            ((ofAdditions additions).toStore.problemAccess id p.code).result = .ok access) ∧
          ((ofAdditions additions).toStore.visibleProblems id).result =
            .ok (stored.filter fun p =>
              ((ofAdditions additions).toStore.problemAccess id p.code).reports
                (·.accessible)) ∧
          ((ofAdditions additions).toStore.editableProblems id).result =
            .ok (stored.filter fun p =>
              ((ofAdditions additions).toStore.problemAccess id p.code).reports
                (·.editable))) ∧
      (∀ i : ProfileId, (∀ u, Addition.profile u ∈ additions → u.id ≠ i) →
        ((ofAdditions additions).toStore.visibleProblems (some i)).result =
          .error (.notFound (.profile i)) ∧
        ((ofAdditions additions).toStore.editableProblems (some i)).result =
          .error (.notFound (.profile i)) ∧
        ∀ p ∈ stored, ((ofAdditions additions).toStore.problemAccess (some i) p.code).result =
          .error (.notFound (.profile i))) := by
  refine ⟨(ofAdditions additions).problems.values, pairwise_values additions, ?_, ?_, ?_⟩
  · intro p
    rw [mem_values_iff, get?_problems_ofAdditions]
  · intro id hknown
    obtain ⟨v, hv⟩ := exists_viewer hknown
    refine ⟨fun p hp => ⟨v.accessTo p, ?_⟩, ?_, ?_⟩
    · rw [result_problemAccess (mem_values_iff.mp hp), hv]
      rfl
    · exact result_problemsUnder_of_viewer hv fun p => rfl
    · exact result_problemsUnder_of_viewer hv fun p => rfl
  · intro i hunknown
    have hv := viewer_of_unknown hunknown
    refine ⟨?_, ?_, fun p hp => ?_⟩
    · rw [Store.visibleProblems, result_problemsUnder, hv]
      rfl
    · rw [Store.editableProblems, result_problemsUnder, hv]
      rfl
    · rw [result_problemAccess (mem_values_iff.mp hp), hv]
      rfl

namespace MemoryStore

/-- `renamedProblem`, open to its organization. -/
def openedProblem : Problem := { renamedProblem with isPublic := true }

/-- A member of the organization of `sharedProblem`. -/
def memberProfile : Profile := { id := 6, organizations := SortedSet.ofList [5] }

/-- Two problems against the order of their codes, a member who is made an
administrator, and then the first problem again, opened. -/
def openedAdditions : List Addition := [
  .problem renamedProblem,
  .profile memberProfile,
  .problem sharedProblem,
  .admins 5 [6],
  .problem openedProblem]

end MemoryStore

open MemoryStore in
theorem lists_agree_with_single_inquiries_opened :
    ∃ stored : List Problem,
      sharedProblem ∈ stored ∧ openedProblem ∈ stored ∧ renamedProblem ∉ stored ∧
      ((ofAdditions openedAdditions).toStore.visibleProblems (some 6)).result =
        .ok (stored.filter fun p =>
          ((ofAdditions openedAdditions).toStore.problemAccess (some 6) p.code).reports
            (·.accessible)) ∧
      ((ofAdditions openedAdditions).toStore.editableProblems none).result =
        .ok (stored.filter fun p =>
          ((ofAdditions openedAdditions).toStore.problemAccess none p.code).reports (·.editable)) ∧
      ((ofAdditions openedAdditions).toStore.visibleProblems (some 4)).result =
        .error (.notFound (.profile 4)) := by
  have hprofile : ∀ u, Addition.profile u ∈ openedAdditions ↔ u = memberProfile := by
    simp [openedAdditions]
  obtain ⟨stored, -, hstored, hknown, hunknown⟩ :=
    lists_agree_with_single_inquiries openedAdditions
  obtain ⟨-, hvisible, -⟩ := hknown (some 6) fun i hi =>
    ⟨memberProfile, (hprofile _).mpr rfl, Option.some.inj hi⟩
  obtain ⟨-, -, heditable⟩ := hknown none fun i hi => by cases hi
  obtain ⟨hmissing, -, -⟩ := hunknown 4 fun u hu => by
    rw [(hprofile u).mp hu]
    decide
  refine ⟨stored, (hstored _).mpr (by decide), (hstored _).mpr (by decide), ?_, hvisible,
    heditable, hmissing⟩
  rw [hstored]
  decide

end JudgePolicy
