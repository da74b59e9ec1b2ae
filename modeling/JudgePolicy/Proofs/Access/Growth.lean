/-
Grants only add.

Where no capability and no role lies under an odd number of negations, a rule
*grants positively*: whoever is granted something keeps it when more is granted.

* `Rises.of_grantsPositively` — from one setting to another with more
  capabilities and more roles, the atoms of such a rule rise;
* `ExtendedTo` — one profile, viewer or problem has all that another one has, and
  possibly more; `Draft.exists_build_applyAll` finds the problem that a draft
  with more statements is built to;
* `grants_are_monotone` — extending the viewer and the problem never takes away
  the sight of a problem or an editorial, nor a right to edit or to manage.

Design notes: a problem that becomes public is not a grant, so what its flag does
in a rule is a condition of its own (`PublishesPositively`).  A problem that
becomes private to its organizations is no extension at all.
-/
import JudgePolicy.Proofs.Access.Noninterference
import JudgePolicy.Proofs.Problem.Building
namespace JudgePolicy

/-! ### Rules that grant positively -/

namespace Rule

/-- No capability and no role lies under an odd number of negations. -/
def GrantsPositively (r : Rule) : Prop := ∀ a ∈ r.atoms, a.2.IsGrant → Even a.1

/-- Nor does the question whether the problem is public. -/
def PublishesPositively (r : Rule) : Prop :=
  ∀ a ∈ r.atoms, a.2 = .flag .isPublic → Even a.1

instance (r : Rule) : Decidable r.GrantsPositively :=
  inferInstanceAs (Decidable (∀ a ∈ r.atoms, a.2.IsGrant → Even a.1))

instance (r : Rule) : Decidable r.PublishesPositively :=
  inferInstanceAs (Decidable (∀ a ∈ r.atoms, a.2 = .flag .isPublic → Even a.1))

theorem grantsPositively_edit : edit.GrantsPositively := by decide

theorem grantsPositively_visibility : visibility.GrantsPositively := by decide

theorem grantsPositively_manageSubmissions : manageSubmissions.GrantsPositively := by decide

/-- With more capabilities and more of the roles it asks for, the atoms of a rule
that grants positively rise, if its flags do. -/
theorem Rises.of_grantsPositively {s t : Setting} {r : Rule} (hr : r.GrantsPositively)
    (hcapabilities : ∀ c ∈ s.capabilities, c ∈ t.capabilities)
    (hroles : ∀ n x, (n, Atom.role x) ∈ r.atoms → x ∈ s.roles → x ∈ t.roles)
    (heven : ∀ n f, (n, Atom.flag f) ∈ r.atoms → Even n →
      f.holds s.problem = true → f.holds t.problem = true)
    (hodd : ∀ n f, (n, Atom.flag f) ∈ r.atoms → ¬Even n →
      f.holds t.problem = true → f.holds s.problem = true) : Rises s t r where
  even n a ha hn hs := by
    cases a with
    | capability c => exact decide_eq_true (hcapabilities c (of_decide_eq_true hs))
    | role x => exact decide_eq_true (hroles n x ha (of_decide_eq_true hs))
    | flag f => exact heven n f ha hn hs
  odd n a ha hn ht := by
    -- Only flags may lie under an odd number of negations.
    cases a with
    | capability c => exact absurd (hr _ ha trivial) hn
    | role x => exact absurd (hr _ ha trivial) hn
    | flag f => exact hodd n f ha hn ht

/-- On one problem, a rule that grants positively goes on to grant to whoever
holds more and is more. -/
theorem holds_of_grantsPositively {r : Rule} (hr : r.GrantsPositively) {p : Problem}
    {cs ds : CapabilitySet} {xs ys : RoleSet} (hcapabilities : ∀ c ∈ cs, c ∈ ds)
    (hroles : ∀ x ∈ xs, x ∈ ys) (h : r.holds cs xs p = true) : r.holds ds ys p = true := by
  have rises : Rises ⟨cs, xs, p⟩ ⟨ds, ys, p⟩ r :=
    Rises.of_grantsPositively hr hcapabilities (fun _ x _ => hroles x)
      (fun _ _ _ _ hflag => hflag) (fun _ _ _ _ hflag => hflag)
  exact rises.holdsIn h

end Rule

/-! ### Extensions -/

/-- The second user has the first one's identifier, and everything that was
granted to the first one. -/
structure Profile.ExtendedTo (u w : Profile) : Prop where
  id : u.id = w.id
  permissions : ∀ name ∈ u.permissions, name ∈ w.permissions
  organizations : ∀ o ∈ u.organizations, o ∈ w.organizations
  isSuperuser : u.isSuperuser = true → w.isSuperuser = true

/-- Both viewers are anonymous, or the second one's profile extends the first
one's. -/
def Viewer.ExtendedTo : Viewer → Viewer → Prop
  | .anonymous, .anonymous => True
  | .authenticated u, .authenticated w => u.ExtendedTo w
  | _, _ => False

/-- The second problem has all people and organizations of the first one, is
public if the first one is, and is private to organizations alike. -/
structure Problem.ExtendedTo (p q : Problem) : Prop where
  isPublic : p.isPublic = true → q.isPublic = true
  isOrganizationPrivate : p.isOrganizationPrivate = q.isOrganizationPrivate
  authors : ∀ id ∈ p.authors, id ∈ q.authors
  curators : ∀ id ∈ p.curators, id ∈ q.curators
  testers : ∀ id ∈ p.testers, id ∈ q.testers
  organizations : ∀ o ∈ p.organizations, o ∈ q.organizations

namespace Profile

theorem extendedTo_grantPermissions (u : Profile) (names : List String) :
    u.ExtendedTo (u.grantPermissions names) where
  id := rfl
  permissions _ h := SortedSet.mem_insertAll.mpr (.inl h)
  organizations _ h := h
  isSuperuser h := h

theorem extendedTo_joinOrganizations (u : Profile) (ids : List OrganizationId) :
    u.ExtendedTo (u.joinOrganizations ids) where
  id := rfl
  permissions _ h := h
  organizations _ h := SortedSet.mem_insertAll.mpr (.inl h)
  isSuperuser h := h

theorem extendedTo_makeSuperuser (u : Profile) : u.ExtendedTo u.makeSuperuser where
  id := rfl
  permissions _ h := h
  organizations _ h := h
  isSuperuser _ := rfl

namespace ExtendedTo

variable {u w : Profile} {p q : Problem}

theorem mem_capabilities (h : u.ExtendedTo w) {c : Capability} (hc : c ∈ u.capabilities) :
    c ∈ w.capabilities := by
  rw [Profile.mem_capabilities] at hc ⊢
  exact hc.imp h.isSuperuser (h.permissions _)

theorem isHeld (h : u.ExtendedTo w) (hp : p.ExtendedTo q) {x : Role}
    (hx : x ≠ .organizationAdmin) (hheld : x.isHeld u p = true) : x.isHeld w q = true := by
  cases x with
  | organizationAdmin => exact absurd rfl hx
  | organizationMember =>
    obtain ⟨o, hu, ho⟩ := SortedSet.meets_iff.mp hheld
    exact SortedSet.meets_iff.mpr ⟨o, h.organizations o hu, hp.organizations o ho⟩
  | author => exact decide_eq_true (h.id ▸ hp.authors _ (of_decide_eq_true hheld))
  | curator => exact decide_eq_true (h.id ▸ hp.curators _ (of_decide_eq_true hheld))
  | tester => exact decide_eq_true (h.id ▸ hp.testers _ (of_decide_eq_true hheld))

end ExtendedTo

end Profile

/-! ### Drafts with more statements -/

namespace Problem

theorem ExtendedTo.refl (p : Problem) : p.ExtendedTo p :=
  ⟨fun h => h, rfl, fun _ h => h, fun _ h => h, fun _ h => h, fun _ h => h⟩

theorem ExtendedTo.trans {p q r : Problem} (h : p.ExtendedTo q) (h' : q.ExtendedTo r) :
    p.ExtendedTo r where
  isPublic hp := h'.isPublic (h.isPublic hp)
  isOrganizationPrivate := h.isOrganizationPrivate.trans h'.isOrganizationPrivate
  authors id hp := h'.authors id (h.authors id hp)
  curators id hp := h'.curators id (h.curators id hp)
  testers id hp := h'.testers id (h.testers id hp)
  organizations o hp := h'.organizations o (h.organizations o hp)

/-- Whether a statement takes nothing away: it adds people or organizations, it
makes the problem public, or access does not read it. -/
def Step.Adds : Step → Prop
  | .isPublic flag => flag = true
  | .isOrganizationPrivate _ => False
  | .name _ | .authors _ | .curators _ | .testers _ | .organizations _ | .bannedUsers _ => True

namespace Draft

variable {d : Draft} {s : Step} {p : Problem}

theorem isPublic_apply (hs : s.Adds) (h : d.isPublic = true) : (d.apply s).isPublic = true := by
  cases s with
  | isPublic flag => exact hs
  | _ => exact h

theorem isOrganizationPrivate_apply (hs : s.Adds) :
    (d.apply s).isOrganizationPrivate = d.isOrganizationPrivate := by
  cases s with
  | isOrganizationPrivate flag => exact hs.elim
  | _ => rfl

/-- After one more statement that adds, a draft is built to an extension. -/
theorem exists_build_apply (hbuild : d.build = .ok p) (hs : s.Adds) :
    ∃ q, (d.apply s).build = .ok q ∧ p.ExtendedTo q := by
  obtain ⟨q, hq⟩ := exists_build_apply_of_build hbuild s
  have hpd := build_eq_ok_iff.mp hbuild
  have hqd := build_eq_ok_iff.mp hq
  refine ⟨q, hq, ?_, ?_, ?_, ?_, ?_, ?_⟩
  · rw [hpd.isPublic, hqd.isPublic]
    exact isPublic_apply hs
  · rw [hpd.isOrganizationPrivate, hqd.isOrganizationPrivate, isOrganizationPrivate_apply hs]
  · rw [hpd.authors, hqd.authors]
    exact fun _ => mem_authors_apply
  · rw [hpd.curators, hqd.curators]
    exact fun _ => mem_curators_apply
  · rw [hpd.testers, hqd.testers]
    exact fun _ => mem_testers_apply
  · rw [hpd.organizations, hqd.organizations]
    exact fun _ => mem_organizations_apply

/-- A draft that was built is still built after more statements that add, and to
an extension of the first problem. -/
theorem exists_build_applyAll (hbuild : d.build = .ok p) {steps : List Step}
    (hsteps : ∀ s ∈ steps, s.Adds) :
    ∃ q, (d.applyAll steps).build = .ok q ∧ p.ExtendedTo q := by
  induction steps generalizing d p with
  | nil => exact ⟨p, hbuild, .refl p⟩
  | cons s rest ih =>
    rw [List.forall_mem_cons] at hsteps
    obtain ⟨q, hq, hpq⟩ := exists_build_apply hbuild hsteps.1
    obtain ⟨r, hr, hqr⟩ := ih hq hsteps.2
    exact ⟨r, hr, hpq.trans hqr⟩

end Draft

end Problem

/-! ### Decisions about extensions -/

namespace Viewer.ExtendedTo

variable {v w : Viewer} {p q : Problem} {r : Rule}

theorem mem_capabilities (h : v.ExtendedTo w) {c : Capability} (hc : c ∈ v.capabilities) :
    c ∈ w.capabilities := by
  match v, w, h with
  | .anonymous, .anonymous, _ => exact hc
  | .authenticated u, .authenticated u', h => exact Profile.ExtendedTo.mem_capabilities h hc

theorem mem_rolesOn (h : v.ExtendedTo w) (hp : p.ExtendedTo q) {x : Role}
    (hx : x ≠ .organizationAdmin) (hrole : x ∈ v.rolesOn p) : x ∈ w.rolesOn q := by
  match v, w, h with
  | .anonymous, .anonymous, _ => exact absurd hrole (SortedSet.not_mem_empty x)
  | .authenticated u, .authenticated u', h =>
    rw [rolesOn, SortedSet.mem_ofList, List.mem_filter] at hrole ⊢
    exact ⟨hrole.1, Profile.ExtendedTo.isHeld h hp hx hrole.2⟩

/-- What was granted before both were extended is granted afterwards. -/
theorem may (h : v.ExtendedTo w) (hp : p.ExtendedTo q) (hgrants : r.GrantsPositively)
    (hpublishes : r.PublishesPositively) (hadmins : r.IgnoresAdmins)
    (hmay : v.may r p = true) : w.may r q = true := by
  have rises : Rule.Rises ⟨v.capabilities, v.rolesOn p, p⟩ ⟨w.capabilities, w.rolesOn q, q⟩ r := by
    refine .of_grantsPositively hgrants (fun c => h.mem_capabilities)
      (fun n x ha => h.mem_rolesOn hp fun hx => hadmins _ ha (hx ▸ rfl)) ?_ ?_
    · intro n f ha hn hflag
      cases f with
      | isPublic => exact hp.isPublic hflag
      | isOrganizationPrivate => exact hp.isOrganizationPrivate.symm.trans hflag
    · intro n f ha hn hflag
      cases f with
      | isPublic => exact absurd (hpublishes _ ha rfl) hn
      | isOrganizationPrivate => exact hp.isOrganizationPrivate.trans hflag
  exact rises.holdsIn hmay

theorem canSee (h : v.ExtendedTo w) (hp : p.ExtendedTo q) (hsee : v.canSee p = true) :
    w.canSee q = true :=
  h.may hp Rule.grantsPositively_visibility (by decide) Rule.ignoresAdmins_visibility hsee

theorem canEdit (h : v.ExtendedTo w) (hp : p.ExtendedTo q) (hedit : v.canEdit p = true) :
    w.canEdit q = true :=
  h.may hp Rule.grantsPositively_edit (by decide) Rule.ignoresAdmins_edit hedit

theorem canManageSubmissions (h : v.ExtendedTo w) (hp : p.ExtendedTo q)
    (hmanage : v.canManageSubmissions p = true) : w.canManageSubmissions q = true :=
  h.may hp Rule.grantsPositively_manageSubmissions (by decide)
    Rule.ignoresAdmins_manageSubmissions hmanage

theorem isEditor (h : v.ExtendedTo w) (hp : p.ExtendedTo q)
    (heditor : (v.rolesOn p).isEditor = true) : (w.rolesOn q).isEditor = true := by
  rw [RoleSet.isEditor, Bool.or_eq_true, decide_eq_true_iff, decide_eq_true_iff] at heditor ⊢
  exact heditor.imp (h.mem_rolesOn hp (by decide)) (h.mem_rolesOn hp (by decide))

theorem canRead (h : v.ExtendedTo w) {e f : Editorial} (hp : e.problem.ExtendedTo f.problem)
    (hpublic : e.isPublic = f.isPublic) (hdate : e.publishOn = f.publishOn) {now : Instant}
    (hread : v.canRead e now = true) : w.canRead f now = true := by
  rw [canRead_iff] at hread ⊢
  -- Each path stays open on its own.
  refine hread.imp h.mem_capabilities (Or.imp (h.isEditor hp) (Or.imp (h.canEdit hp) ?_))
  intro hpublished
  rwa [Editorial.isPublishedAt, ← hpublic, ← hdate]

end Viewer.ExtendedTo

/-- **Grants are monotone.**  A rule in which no capability and no role lies under
an odd number of negations goes on to hold when more is granted, and the three
rules are such rules.  So permission names, organizations, superuser status, more
people and organizations of a problem, and its becoming public never take away
access, neither from single decisions nor from lists nor from editorials. -/
theorem grants_are_monotone :
    (∀ r : Rule, r.GrantsPositively →
      ∀ (p : Problem) (cs ds : CapabilitySet) (xs ys : RoleSet),
        (∀ c ∈ cs, c ∈ ds) → (∀ x ∈ xs, x ∈ ys) →
          r.holds cs xs p = true → r.holds ds ys p = true) ∧
    (Rule.edit.GrantsPositively ∧ Rule.visibility.GrantsPositively ∧
      Rule.manageSubmissions.GrantsPositively) ∧
    (∀ (u : Profile) (names : List String) (ids : List OrganizationId),
      u.ExtendedTo (u.grantPermissions names) ∧ u.ExtendedTo (u.joinOrganizations ids) ∧
        u.ExtendedTo u.makeSuperuser) ∧
    (∀ (d : Problem.Draft) (p : Problem) (steps : List Problem.Step), d.build = .ok p →
      (∀ s ∈ steps, s.Adds) → ∃ q, (d.applyAll steps).build = .ok q ∧ p.ExtendedTo q) ∧
    (∀ (v w : Viewer) (p q : Problem), v.ExtendedTo w → p.ExtendedTo q →
      (v.canSee p = true → w.canSee q = true) ∧
      (v.canEdit p = true → w.canEdit q = true) ∧
      (v.canManageSubmissions p = true → w.canManageSubmissions q = true) ∧
      (v.visible.selects p = true → w.visible.selects q = true) ∧
      (v.editable.selects p = true → w.editable.selects q = true) ∧
      (v.manageable.selects p = true → w.manageable.selects q = true) ∧
      ∀ (e f : Editorial) (now : Instant), e.problem = p → f.problem = q →
        e.isPublic = f.isPublic → e.publishOn = f.publishOn →
          v.canRead e now = true → w.canRead f now = true) := by
  refine ⟨?_, ?_, ?_, ?_, ?_⟩
  · intro r hr p cs ds xs ys hcapabilities hroles
    exact Rule.holds_of_grantsPositively hr hcapabilities hroles
  · exact ⟨Rule.grantsPositively_edit, Rule.grantsPositively_visibility,
      Rule.grantsPositively_manageSubmissions⟩
  · intro u names ids
    exact ⟨u.extendedTo_grantPermissions names, u.extendedTo_joinOrganizations ids,
      u.extendedTo_makeSuperuser⟩
  · intro d p steps hbuild hsteps
    exact Problem.Draft.exists_build_applyAll hbuild hsteps
  · intro v w p q h hp
    -- Lists select what single decisions grant.
    simp only [Viewer.selects_visible, Viewer.selects_editable, Viewer.selects_manageable]
    refine ⟨h.canSee hp, h.canEdit hp, h.canManageSubmissions hp, h.canSee hp, h.canEdit hp,
      h.canManageSubmissions hp, ?_⟩
    rintro e f now rfl rfl hpublic hdate
    exact h.canRead hp hpublic hdate

/-- A problem that nobody sees but the person who tests it. -/
def testedProblem : Problem where
  id := 1
  code := "tested"
  name := "tested"
  points := .zero
  isPublic := false
  isOrganizationPrivate := false
  authors := ∅
  curators := ∅
  testers := Roster.addAll ∅ [7]
  organizations := ∅
  bannedUsers := ∅
  code_length := by decide
  code_chars := by decide
  points_score := Problem.isScore_zero

/-- The statements from which `testedProblem` is built. -/
def testedDraft : Problem.Draft :=
  { id := 1, code := "tested", points := .zero, testers := Roster.addAll ∅ [7] }

/-- The person who tests `testedProblem`. -/
def testerProfile : Profile := { id := 7 }

theorem grants_are_monotone_tested :
    ∃ q : Problem,
      (testedDraft.applyAll [.authors [8], .name "Sum", .isPublic true]).build = .ok q ∧
      (Viewer.authenticated testerProfile).canSee testedProblem = true ∧
      (Viewer.authenticated testerProfile.makeSuperuser).canSee q = true ∧
      (Viewer.authenticated testerProfile.makeSuperuser).visible.selects q = true ∧
      ∀ now : Instant,
        (Viewer.authenticated testerProfile).canRead ⟨testedProblem, true, now, [], []⟩ now = true ∧
        (Viewer.authenticated testerProfile.makeSuperuser).canRead ⟨q, true, now, [], []⟩ now =
          true := by
  obtain ⟨-, -, hprofiles, hdrafts, hviewers⟩ := grants_are_monotone
  obtain ⟨q, hq, hpq⟩ := hdrafts testedDraft testedProblem
    [.authors [8], .name "Sum", .isPublic true] rfl (by simp [Problem.Step.Adds])
  obtain ⟨-, -, hsuperuser⟩ := hprofiles testerProfile [] []
  obtain ⟨hsee, -, -, hvisible, -, -, hread⟩ := hviewers (.authenticated testerProfile)
    (.authenticated testerProfile.makeSuperuser) testedProblem q hsuperuser hpq
  have hbefore : (Viewer.authenticated testerProfile).canSee testedProblem = true := by decide
  refine ⟨q, hq, hbefore, hsee hbefore, hvisible (by decide), fun now => ?_⟩
  have hpublished : (Viewer.authenticated testerProfile).canRead
      ⟨testedProblem, true, now, [], []⟩ now = true :=
    Viewer.canRead_iff.mpr (.inr (.inr (.inr (decide_eq_true now.le_refl))))
  exact ⟨hpublished, hread ⟨testedProblem, true, now, [], []⟩ ⟨q, true, now, [], []⟩ now
    rfl rfl rfl rfl hpublished⟩

end JudgePolicy
