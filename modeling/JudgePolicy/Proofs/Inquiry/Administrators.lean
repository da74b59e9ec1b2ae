/-
What a viewer learns for a problem, and that it is worth nothing.

For an inquiry about a problem, the store is asked about each of the problem's
organizations whether the viewer administers it:

* `Store.knowing_eq` — the profile gains exactly those organizations, and no other field
  of it changes;
* `Store.result_viewerFor` — this is the viewer that comes out, if no lookup fails;
* `Profile.sameStanding_administered` — whichever organizations a user is known to
  administer, the standing is the same, and with it all access;
* `known_administrators_gain_nothing` — all of this for a stored profile.

Design notes: the set of organizations that are learnt is determined by its elements,
so the theorem says which elements it has and leaves the order of lookups open.
-/
import JudgePolicy.Proofs.Access.ClosedForm
import JudgePolicy.Proofs.Inquiry.Stages
namespace JudgePolicy

namespace Profile

/-- Knowing what a user administers does not change the user's standing. -/
theorem sameStanding_administered (u : Profile) (os : SortedSet OrganizationId) :
    Profile.SameStanding { u with administered := os } u :=
  ⟨rfl, rfl, rfl⟩

end Profile

theorem isAdmin_rolesOn_iff {u : Profile} {p : Problem} :
    Role.organizationAdmin ∈ (Viewer.authenticated u).rolesOn p ↔
      ∃ o, o ∈ u.administered ∧ o ∈ p.organizations :=
  Viewer.mem_rolesOn_authenticated.trans SortedSet.meets_iff

namespace Store

variable {s : Store} {id : ProfileId} {u : Profile} {p : Problem}
  {admins : OrganizationId → SortedSet ProfileId}

/-- The organizations of a problem that a store tells to be administered by a profile. -/
def administeredOf (p : Problem) (admins : OrganizationId → SortedSet ProfileId)
    (id : ProfileId) : SortedSet OrganizationId :=
  p.organizations.filter fun o => id ∈ admins o

theorem mem_administeredOf {o : OrganizationId} :
    o ∈ administeredOf p admins id ↔ o ∈ p.organizations ∧ id ∈ admins o := by
  rw [administeredOf, SortedSet.mem_filter, decide_eq_true_iff]

theorem knowing_eq (hadmins : ∀ o ∈ p.organizations, s.admins o = .ok (admins o)) (u : Profile) :
    s.knowing p.organizations.toList u =
      { u with administered := u.administered.union (administeredOf p admins u.id) } := by
  have hfilter : p.organizations.toList.filter (s.administers u.id) =
      (administeredOf p admins u.id).toList := by
    refine List.filter_congr fun o ho => ?_
    rw [administers, hadmins o ho]
  rw [knowing, hfilter]
  rfl

theorem result_viewer (hprofile : s.profile id = .ok (some u)) :
    (s.viewer (some id)).result = .ok (.authenticated u) := by
  have hstages : ∀ stage ∈ s.profileStages (some id), stage.failure = none := by
    simp [profileStages, Stage.search, hprofile]
  obtain ⟨-, v, hv, u', hu', rfl⟩ := (s.follows_viewer (some id)).answered hstages
  obtain rfl : u = u' := Option.some.inj (Except.ok.inj (hprofile.symm.trans hu'))
  exact hv

/-- If no lookup fails, the viewer for a problem has learnt what it administers. -/
theorem result_viewerFor (hprofile : s.profile id = .ok (some u))
    (hadmins : ∀ o ∈ p.organizations, s.admins o = .ok (admins o)) :
    (s.viewerFor (some id) p).result = .ok (.authenticated
      { u with administered := u.administered.union (administeredOf p admins u.id) }) := by
  have hstages : ∀ stage ∈ s.profileStages (some id) ++ s.affiliationStages p (some id),
      stage.failure = none := by
    rw [List.forall_mem_append]
    refine ⟨by simp [profileStages, Stage.search, hprofile], fun stage hstage => ?_⟩
    obtain ⟨o, ho, rfl⟩ := List.mem_map.mp hstage
    simp only [Stage.plain, hadmins o ho]
  obtain ⟨-, w, hw, v, ⟨u', hu', rfl⟩, rfl⟩ := (s.follows_viewerFor p (some id)).answered hstages
  obtain rfl : u = u' := Option.some.inj (Except.ok.inj (hprofile.symm.trans hu'))
  rw [hw, knowingFor, knowing_eq hadmins]

end Store

/-- **Known administrators gain nothing.**  In a store whose lookups succeed, the viewer
for a problem is the stored profile to which those of the problem's organizations are
added that it administers, and is changed in nothing else; an anonymous viewer stays
anonymous.  So it is an administrator for the problem exactly if it was known as one or is
found to be one, and in all other roles, in its access to any problem and in what it may
read it is the plain viewer. -/
theorem known_administrators_gain_nothing (s : Store) (p : Problem)
    (admins : OrganizationId → SortedSet ProfileId)
    (hadmins : ∀ o ∈ p.organizations, s.admins o = .ok (admins o)) :
    (∀ (id : ProfileId) (u : Profile), s.profile id = .ok (some u) →
      (s.viewer (some id)).result = .ok (.authenticated u) ∧
      ∃ w : Profile,
        (s.viewerFor (some id) p).result = .ok (.authenticated w) ∧
        w = { u with administered := w.administered } ∧
        (∀ o, o ∈ w.administered ↔ o ∈ u.administered ∨ o ∈ p.organizations ∧ u.id ∈ admins o) ∧
        (Role.organizationAdmin ∈ (Viewer.authenticated w).rolesOn p ↔
          ∃ o, o ∈ p.organizations ∧ (o ∈ u.administered ∨ u.id ∈ admins o)) ∧
        (∀ (q : Problem) (r : Role), r ≠ .organizationAdmin →
          (r ∈ (Viewer.authenticated w).rolesOn q ↔ r ∈ (Viewer.authenticated u).rolesOn q)) ∧
        (∀ q : Problem,
          (Viewer.authenticated w).accessTo q = (Viewer.authenticated u).accessTo q) ∧
        ∀ (e : Editorial) (now : Instant),
          (Viewer.authenticated w).canRead e now = (Viewer.authenticated u).canRead e now) ∧
    (s.viewer none).result = .ok .anonymous ∧ (s.viewerFor none p).result = .ok .anonymous := by
  refine ⟨fun id u hprofile => ⟨Store.result_viewer hprofile, _,
    Store.result_viewerFor hprofile hadmins, rfl, ?_, ?_, ?_, ?_, ?_⟩, rfl, rfl⟩
  · intro o
    rw [SortedSet.mem_union, Store.mem_administeredOf]
  · rw [isAdmin_rolesOn_iff]
    refine exists_congr fun o => ?_
    rw [SortedSet.mem_union, Store.mem_administeredOf]
    constructor
    · rintro ⟨hknown | ⟨ho, hfound⟩, ho'⟩
      · exact ⟨ho', .inl hknown⟩
      · exact ⟨ho, .inr hfound⟩
    · rintro ⟨ho, hknown | hfound⟩
      · exact ⟨.inl hknown, ho⟩
      · exact ⟨.inr ⟨ho, hfound⟩, ho⟩
  · intro q r hr
    exact (u.sameStanding_administered _).mem_rolesOn_iff (.refl q) hr
  · intro q
    exact (u.sameStanding_administered _).accessTo_eq (.refl q)
  · intro e now
    exact (u.sameStanding_administered _).canRead_eq ⟨.refl e.problem, rfl, rfl⟩ now

/-- `sharedProblem` of three organizations. -/
def alliedProblem : Problem := { sharedProblem with organizations := SortedSet.ofList [4, 5, 6] }

/-- A curator of nothing who is known to administer the fourth and the ninth organization. -/
def steward : Profile := { id := 9, administered := SortedSet.ofList [4, 9] }

/-- The steward is found to administer the sixth organization, and the eighth. -/
def stewardStore : MemoryStore :=
  MemoryStore.empty.addAll
    [.profile steward, .admins 5 [7, 8], .admins 6 [8, 9], .admins 8 [9]]

/-- The eighth organization is none of the problem's, and stays out. -/
theorem known_administrators_gain_nothing_steward :
    ∃ w : Profile,
      (stewardStore.toStore.viewerFor (some 9) alliedProblem).result = .ok (.authenticated w) ∧
      9 ∈ w.administered ∧ 6 ∈ w.administered ∧ 5 ∉ w.administered ∧ 8 ∉ w.administered ∧
      Role.organizationAdmin ∈ (Viewer.authenticated w).rolesOn alliedProblem ∧
      (Viewer.authenticated w).accessTo alliedProblem =
        (Viewer.authenticated steward).accessTo alliedProblem ∧
      (Viewer.authenticated w).canSee alliedProblem = false := by
  have hadmins : ∀ o ∈ alliedProblem.organizations,
      stewardStore.toStore.admins o = .ok (stewardStore.admins o) := fun o _ => rfl
  obtain ⟨hstored, -⟩ :=
    known_administrators_gain_nothing stewardStore.toStore alliedProblem stewardStore.admins hadmins
  obtain ⟨-, w, hw, -, hadministered, hadmin, -, haccess, -⟩ := hstored 9 steward (by decide)
  have hunseen : (Viewer.authenticated w).canSee alliedProblem = false :=
    (congrArg Access.accessible (haccess alliedProblem)).trans (by decide)
  refine ⟨w, hw, (hadministered 9).mpr (by decide), (hadministered 6).mpr (by decide), ?_, ?_,
    hadmin.mpr ⟨6, by decide, by decide⟩, haccess alliedProblem, hunseen⟩
  · rw [hadministered]
    decide
  · rw [hadministered]
    decide

end JudgePolicy
