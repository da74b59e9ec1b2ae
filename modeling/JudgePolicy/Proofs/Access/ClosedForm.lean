/-
The three decisions in closed form.

What a viewer may do with a problem is put in terms of what can be read off the viewer's
profile and off the statements from which the problem was built:

* `canEdit_iff`, `canManageSubmissions_iff`, `canSee_iff` — the decisions, in terms of
  capabilities and roles;
* `mem_rolesOn_authenticated`, `isEditor_rolesOn_iff` — the roles, in terms of the profile
  and the problem;
* `decisions_in_closed_form` — the decisions, in terms of granted permission names and
  of the people who were ever named.

Design notes: editing occurs as a part of the other two decisions, so its formula is
written once and the other two refer to the decision.
-/
import JudgePolicy.Access
import JudgePolicy.Proofs.Problem.Building
namespace JudgePolicy

/-! ### In terms of capabilities and roles -/

namespace Viewer

variable {v : Viewer} {u : Profile} {p : Problem}

theorem canEdit_iff : v.canEdit p = true ↔
    Capability.editAll ∈ v.capabilities ∨
      Capability.editOwn ∈ v.capabilities ∧
        ((v.rolesOn p).isEditor = true ∨
          Capability.editPublic ∈ v.capabilities ∧ p.isPublic = true) := by
  simp only [canEdit, may, Rule.edit, Rule.holds, Rule.anyHolds, Rule.allHold, Flag.holds,
    RoleSet.isEditor, Bool.or_false, Bool.and_true, Bool.or_eq_true, Bool.and_eq_true,
    decide_eq_true_eq]
  rw [← and_or_left]

theorem canManageSubmissions_iff : v.canManageSubmissions p = true ↔
    Capability.editAll ∈ v.capabilities ∨
      Capability.rejudge ∈ v.capabilities ∧ v.canEdit p = true := by
  simp only [canManageSubmissions, canEdit, may, Rule.manageSubmissions, Rule.holds,
    Rule.anyHolds, Rule.allHold, Bool.or_false, Bool.and_true, Bool.or_eq_true,
    Bool.and_eq_true, decide_eq_true_eq]

theorem canSee_iff : v.canSee p = true ↔
    Capability.seeAll ∈ v.capabilities ∨
      p.isPublic = true ∧
        (p.isOrganizationPrivate = false ∨ Role.organizationMember ∈ v.rolesOn p) ∨
      p.isOrganizationPrivate = true ∧ Role.organizationMember ∈ v.rolesOn p ∧
        Capability.seeOrganization ∈ v.capabilities ∨
      (v.rolesOn p).isEditor = true ∨ Role.tester ∈ v.rolesOn p ∨ v.canEdit p = true := by
  simp only [canSee, canEdit, may, Rule.visibility, Rule.holds, Rule.anyHolds, Rule.allHold,
    Flag.holds, RoleSet.isEditor, Bool.or_false, Bool.and_true, Bool.or_eq_true,
    Bool.and_eq_true, Bool.not_eq_true', decide_eq_true_eq, or_assoc]

/-! ### Capabilities and roles -/

theorem mem_rolesOn_authenticated {r : Role} :
    r ∈ (authenticated u).rolesOn p ↔ r.isHeld u p = true := by
  simp [mem_rolesOn, profile?]

theorem isEditor_rolesOn_iff : ((authenticated u).rolesOn p).isEditor = true ↔
    u.id ∈ p.authors ∨ u.id ∈ p.curators := by
  rw [RoleSet.isEditor, Bool.or_eq_true, decide_eq_true_iff, decide_eq_true_iff,
    mem_rolesOn_authenticated, mem_rolesOn_authenticated]
  exact or_congr decide_eq_true_iff decide_eq_true_iff

theorem not_canEdit_anonymous (p : Problem) : anonymous.canEdit p = false := by
  rw [← Bool.not_eq_true, canEdit_iff]
  simp [capabilities]

theorem not_canManageSubmissions_anonymous (p : Problem) :
    anonymous.canManageSubmissions p = false := by
  rw [← Bool.not_eq_true, canManageSubmissions_iff]
  simp [capabilities]

/-- An anonymous viewer sees what is public and not kept within organizations. -/
theorem canSee_anonymous_iff : anonymous.canSee p = true ↔
    p.isPublic = true ∧ p.isOrganizationPrivate = false := by
  rw [canSee_iff, not_canEdit_anonymous]
  simp [capabilities, rolesOn, RoleSet.isEditor]

end Viewer

/-! ### In terms of names -/

/-- The user is a superuser, or the capability's permission name was granted. -/
def Profile.Holds (u : Profile) (c : Capability) : Prop :=
  u.isSuperuser = true ∨ c.permission ∈ u.permissions

instance (u : Profile) (c : Capability) : Decidable (u.Holds c) :=
  inferInstanceAs (Decidable (u.isSuperuser = true ∨ c.permission ∈ u.permissions))

/-- The user and the problem have an organization in common. -/
def Profile.SharesOrganization (u : Profile) (p : Problem) : Prop :=
  ∃ o, o ∈ u.organizations ∧ o ∈ p.organizations

/-- The statements name the person as author or as curator. -/
def Problem.NamedEditor (steps : List Step) (id : ProfileId) : Prop :=
  NamedFor steps .author id ∨ NamedFor steps .curator id

instance (steps : List Problem.Step) (id : ProfileId) :
    Decidable (Problem.NamedEditor steps id) :=
  inferInstanceAs (Decidable
    (Problem.NamedFor steps .author id ∨ Problem.NamedFor steps .curator id))

section Built

variable {u : Profile} {p : Problem} {id : ProblemId} {code : String} {points : Binary64}
  {steps : List Problem.Step}

theorem mem_capabilities_authenticated {c : Capability} :
    c ∈ (Viewer.authenticated u).capabilities ↔ u.Holds c :=
  Profile.mem_capabilities

theorem isMember_rolesOn_iff :
    Role.organizationMember ∈ (Viewer.authenticated u).rolesOn p ↔ u.SharesOrganization p :=
  Viewer.mem_rolesOn_authenticated.trans SortedSet.meets_iff

theorem isEditor_rolesOn_iff_named
    (h : (Problem.Draft.applyAll { id, code, points } steps).build = .ok p) :
    ((Viewer.authenticated u).rolesOn p).isEditor = true ↔ Problem.NamedEditor steps u.id := by
  rw [Viewer.isEditor_rolesOn_iff]
  exact or_congr (Problem.Draft.mem_holders_of_build_eq_ok h .author rfl)
    (Problem.Draft.mem_holders_of_build_eq_ok h .curator rfl)

theorem isTester_rolesOn_iff_named
    (h : (Problem.Draft.applyAll { id, code, points } steps).build = .ok p) :
    Role.tester ∈ (Viewer.authenticated u).rolesOn p ↔ Problem.NamedFor steps .tester u.id := by
  rw [Viewer.mem_rolesOn_authenticated, Role.isHeld, decide_eq_true_iff]
  exact Problem.Draft.mem_holders_of_build_eq_ok h .tester rfl

end Built

/-- **The decisions in closed form.**  For a user and a problem built by any run of
statements: who edits it, who manages its submissions and who sees it, by the permission
names that were granted, the organizations in common and the people who were ever named.
A viewer without a profile sees what is public and not kept within organizations, and
does nothing else. -/
theorem decisions_in_closed_form (u : Profile) (id : ProblemId) (code : String)
    (points : Binary64) (steps : List Problem.Step) (p : Problem)
    (h : (Problem.Draft.applyAll { id, code, points } steps).build = .ok p) :
    ((Viewer.authenticated u).canEdit p = true ↔
      u.Holds .editAll ∨
        u.Holds .editOwn ∧
          (Problem.NamedEditor steps u.id ∨ u.Holds .editPublic ∧ p.isPublic = true)) ∧
    ((Viewer.authenticated u).canManageSubmissions p = true ↔
      u.Holds .editAll ∨ u.Holds .rejudge ∧ (Viewer.authenticated u).canEdit p = true) ∧
    ((Viewer.authenticated u).canSee p = true ↔
      u.Holds .seeAll ∨
        p.isPublic = true ∧ (p.isOrganizationPrivate = false ∨ u.SharesOrganization p) ∨
        p.isOrganizationPrivate = true ∧ u.SharesOrganization p ∧ u.Holds .seeOrganization ∨
        Problem.NamedEditor steps u.id ∨ Problem.NamedFor steps .tester u.id ∨
        (Viewer.authenticated u).canEdit p = true) ∧
    (Viewer.anonymous.canSee p = true ↔
      p.isPublic = true ∧ p.isOrganizationPrivate = false) ∧
    Viewer.anonymous.canEdit p = false ∧
    Viewer.anonymous.canManageSubmissions p = false ∧
    (p.isOrganizationPrivate = true → p.organizations = ∅ →
      ((Viewer.authenticated u).canSee p = true ↔
        u.Holds .seeAll ∨ Problem.NamedEditor steps u.id ∨
          Problem.NamedFor steps .tester u.id ∨
          (Viewer.authenticated u).canEdit p = true) ∧
      Viewer.anonymous.canSee p = false) := by
  have hsee := Viewer.canSee_iff (v := .authenticated u) (p := p)
  rw [isEditor_rolesOn_iff_named h, isTester_rolesOn_iff_named h, isMember_rolesOn_iff,
    mem_capabilities_authenticated, mem_capabilities_authenticated] at hsee
  refine ⟨?_, ?_, hsee, Viewer.canSee_anonymous_iff, Viewer.not_canEdit_anonymous p,
    Viewer.not_canManageSubmissions_anonymous p, ?_⟩
  · rw [Viewer.canEdit_iff, isEditor_rolesOn_iff_named h, mem_capabilities_authenticated,
      mem_capabilities_authenticated, mem_capabilities_authenticated]
  · rw [Viewer.canManageSubmissions_iff, mem_capabilities_authenticated,
      mem_capabilities_authenticated]
  · intro hprivate hempty
    -- Where there are no organizations, nobody shares one with the problem.
    have hshares : ¬u.SharesOrganization p := by
      rintro ⟨o, -, ho⟩
      exact SortedSet.not_mem_empty o (hempty ▸ ho)
    have hanonymous : ¬Viewer.anonymous.canSee p = true := by
      rw [Viewer.canSee_anonymous_iff, hprivate]
      simp
    refine ⟨?_, Bool.not_eq_true _ ▸ hanonymous⟩
    rw [hsee, hprivate]
    simp [hshares]

/-- The statements about a problem that is kept within organizations without naming one. -/
def secludedSteps : List Problem.Step :=
  [.authors [7, 7], .isPublic true, .isOrganizationPrivate true, .testers [9],
    .curators [8, 7], .authors []]

/-- A user with the right to edit own problems and the one to see those of organizations. -/
def ownEditor (id : ProfileId) : Profile where
  id
  permissions := SortedSet.ofList
    [Capability.editOwn.permission, Capability.seeOrganization.permission]

/-- A curator edits the problem, without managing its submissions; to a stranger with the
same rights it does not even show. -/
theorem decisions_in_closed_form_secluded :
    ∃ p : Problem,
      (Problem.Draft.applyAll { id := 1, code := "secluded", points := .zero }
        secludedSteps).build = .ok p ∧
      (Viewer.authenticated (ownEditor 8)).canEdit p = true ∧
      ¬(Viewer.authenticated (ownEditor 8)).canManageSubmissions p = true ∧
      (Viewer.authenticated (ownEditor 8)).canSee p = true ∧
      ¬(Viewer.authenticated (ownEditor 10)).canSee p = true ∧
      Viewer.anonymous.canSee p = false := by
  obtain ⟨p, hp⟩ : ∃ p, (Problem.Draft.applyAll { id := 1, code := "secluded", points := .zero }
      secludedSteps).build = .ok p := Problem.Draft.exists_build_eq_ok_iff.mpr (by decide)
  have hbuilt := Problem.Draft.builtFrom_of_build_eq_ok hp
  obtain ⟨hedit, hmanage, hsee, -⟩ :=
    decisions_in_closed_form (ownEditor 8) 1 "secluded" .zero secludedSteps p hp
  obtain ⟨hstrangerEdit, -, -, -, -, -, hsecluded⟩ :=
    decisions_in_closed_form (ownEditor 10) 1 "secluded" .zero secludedSteps p hp
  obtain ⟨hstrangerSee, hanonymous⟩ :=
    hsecluded hbuilt.isOrganizationPrivate hbuilt.organizations
  have hcurated : Problem.NamedEditor secludedSteps 8 := by decide
  have hstranger : ¬(Viewer.authenticated (ownEditor 10)).canEdit p = true := by
    rw [hstrangerEdit]
    rintro (hall | ⟨-, hnamed | ⟨hpublic, -⟩⟩)
    · exact absurd hall (by decide)
    · exact absurd hnamed (by decide)
    · exact absurd hpublic (by decide)
  refine ⟨p, hp, hedit.mpr (.inr ⟨by decide, .inl hcurated⟩), ?_,
    hsee.mpr (.inr (.inr (.inr (.inl hcurated)))), ?_, hanonymous⟩
  · rw [hmanage]
    rintro (hall | ⟨hrejudge, -⟩)
    · exact absurd hall (by decide)
    · exact absurd hrejudge (by decide)
  · rw [hstrangerSee]
    rintro (hall | hnamed | htester | hedits)
    · exact absurd hall (by decide)
    · exact absurd hnamed (by decide)
    · exact absurd htester (by decide)
    · exact hstranger hedits

end JudgePolicy
