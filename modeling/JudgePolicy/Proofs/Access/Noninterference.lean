/-
What decisions may read.

Access to problems and editorials reads of a user the identifier, the
organizations and the capabilities (`Profile.SameStanding`), and of a problem the
flags, the people and the organizations (`Problem.SameAudience`).  Voting reads of
a user the identifier, the contest and the two marks against the user
(`Profile.SameVoter`), and of a problem who is banned from it.  Each side ignores
all the rest:

* `SameAudience.selects_eq`, `SameAudience.accessTo_eq` — problems with the same
  audience are not told apart by any filter or viewer;
* `SameStanding.filter_eq`, `SameStanding.may_eq` — a rule that does not ask for
  administrators leaves the same filter and gives the same answer for users with
  the same standing;
* `access_and_voting_do_not_interfere` — so the three lists, the three decisions
  and the reading of editorials agree for such users; and the right to vote agrees
  for users that are the same voter.

Design notes: of the five roles only the administrator's is read off a field that
`SameStanding` leaves open.  That none of the three rules asks for it is a fact
about their atoms, checked once for each rule.
-/
import JudgePolicy.Editorial
import JudgePolicy.Proofs.Rule.Atoms
import JudgePolicy.Voting
namespace JudgePolicy

/-- The users have the same identifier, capabilities and organizations. -/
structure Profile.SameStanding (u w : Profile) : Prop where
  id : u.id = w.id
  capabilities : u.capabilities = w.capabilities
  organizations : u.organizations = w.organizations

/-- The problems have the same flags, the same people (in any order) and the same
organizations. -/
structure Problem.SameAudience (p q : Problem) : Prop where
  isPublic : p.isPublic = q.isPublic
  isOrganizationPrivate : p.isOrganizationPrivate = q.isOrganizationPrivate
  authors : ∀ id, id ∈ p.authors ↔ id ∈ q.authors
  curators : ∀ id, id ∈ p.curators ↔ id ∈ q.curators
  testers : ∀ id, id ∈ p.testers ↔ id ∈ q.testers
  organizations : p.organizations = q.organizations

/-- The editorials are published alike, for problems with the same audience. -/
structure Editorial.SameRelease (e f : Editorial) : Prop where
  problem : e.problem.SameAudience f.problem
  isPublic : e.isPublic = f.isPublic
  publishOn : e.publishOn = f.publishOn

/-- The users have the same identifier, contest and marks against them. -/
structure Profile.SameVoter (u w : Profile) : Prop where
  id : u.id = w.id
  participation : u.participation = w.participation
  isUnlisted : u.isUnlisted = w.isUnlisted
  isBannedFromVoting : u.isBannedFromVoting = w.isBannedFromVoting

namespace Rule

/-- Nowhere does the rule ask whether the viewer administers an organization. -/
def IgnoresAdmins (r : Rule) : Prop := ∀ a ∈ r.atoms, a.2 ≠ .role .organizationAdmin

instance (r : Rule) : Decidable r.IgnoresAdmins :=
  inferInstanceAs (Decidable (∀ a ∈ r.atoms, a.2 ≠ .role .organizationAdmin))

theorem ignoresAdmins_edit : edit.IgnoresAdmins := by decide

theorem ignoresAdmins_visibility : visibility.IgnoresAdmins := by decide

theorem ignoresAdmins_manageSubmissions : manageSubmissions.IgnoresAdmins := by decide

end Rule

namespace Problem.SameAudience

variable {p q : Problem}

theorem refl (p : Problem) : p.SameAudience p :=
  ⟨rfl, rfl, fun _ => Iff.rfl, fun _ => Iff.rfl, fun _ => Iff.rfl, rfl⟩

mutual

/-- Filters do not tell problems with the same audience apart. -/
theorem selects_eq (h : p.SameAudience q) (f : Filter) : f.selects p = f.selects q := by
  cases f with
  | always => rfl
  | never => rfl
  | isPublic => exact h.isPublic
  | isOrganizationPrivate => exact h.isOrganizationPrivate
  | authoredBy id => exact decide_eq_decide.mpr (h.authors id)
  | curatedBy id => exact decide_eq_decide.mpr (h.curators id)
  | testedBy id => exact decide_eq_decide.mpr (h.testers id)
  | inOrganizations ids => rw [Filter.selects, Filter.selects, h.organizations]
  | not part => rw [Filter.selects, Filter.selects, selects_eq h part]
  | all parts => rw [Filter.selects, Filter.selects, allSelect_eq h parts]
  | any parts => rw [Filter.selects, Filter.selects, anySelects_eq h parts]

theorem allSelect_eq (h : p.SameAudience q) (parts : List Filter) :
    Filter.allSelect parts p = Filter.allSelect parts q := by
  cases parts with
  | nil => rfl
  | cons f rest =>
    rw [Filter.allSelect, Filter.allSelect, selects_eq h f, allSelect_eq h rest]

theorem anySelects_eq (h : p.SameAudience q) (parts : List Filter) :
    Filter.anySelects parts p = Filter.anySelects parts q := by
  cases parts with
  | nil => rfl
  | cons f rest =>
    rw [Filter.anySelects, Filter.anySelects, selects_eq h f, anySelects_eq h rest]

end

/-- A viewer is given the same access to problems with the same audience, even if a
rule were to ask for administrators. -/
theorem accessTo_eq (h : p.SameAudience q) (v : Viewer) : v.accessTo p = v.accessTo q := by
  have hmay : ∀ r, v.may r p = v.may r q := by
    intro r
    rw [← v.selects_filter, ← v.selects_filter, h.selects_eq]
  have hsee : v.canSee p = v.canSee q := hmay .visibility
  have hedit : v.canEdit p = v.canEdit q := hmay .edit
  have hmanage : v.canManageSubmissions p = v.canManageSubmissions q := hmay .manageSubmissions
  rw [Viewer.accessTo, Viewer.accessTo, hsee, hedit, hmanage]

end Problem.SameAudience

namespace Profile

namespace SameStanding

variable {u v w : Profile} {p q : Problem} {r : Rule}

theorem refl (u : Profile) : u.SameStanding u := ⟨rfl, rfl, rfl⟩

theorem trans (h : u.SameStanding v) (h' : v.SameStanding w) : u.SameStanding w :=
  ⟨h.id.trans h'.id, h.capabilities.trans h'.capabilities,
    h.organizations.trans h'.organizations⟩

/-! ### Filters -/

theorem roleFilter_eq (h : u.SameStanding w) {x : Role} (hx : x ≠ .organizationAdmin) :
    x.filter (.authenticated u) = x.filter (.authenticated w) := by
  cases x with
  | organizationAdmin => exact absurd rfl hx
  | organizationMember => exact congrArg Filter.ofOrganizations h.organizations
  | author => exact congrArg Filter.authoredBy h.id
  | curator => exact congrArg Filter.curatedBy h.id
  | tester => exact congrArg Filter.testedBy h.id

/-- Users with the same standing are left the same filter. -/
theorem filter_eq (h : u.SameStanding w) (hr : r.IgnoresAdmins) :
    (Viewer.authenticated u).filter r = (Viewer.authenticated w).filter r := by
  have hroles : ∀ n x, (n, Rule.Atom.role x) ∈ r.atoms →
      x.filter (.authenticated u) = x.filter (.authenticated w) := by
    intro n x hx
    refine h.roleFilter_eq ?_
    rintro rfl
    exact hr _ hx rfl
  have hcapabilities : (Viewer.authenticated u).capabilities =
      (Viewer.authenticated w).capabilities := h.capabilities
  rw [Viewer.filter, Viewer.filter, hcapabilities]
  exact Rule.residual_congr hroles

/-! ### Single decisions -/

theorem isHeld_eq (h : u.SameStanding w) (hp : p.SameAudience q) {x : Role}
    (hx : x ≠ .organizationAdmin) : x.isHeld u p = x.isHeld w q := by
  cases x with
  | organizationAdmin => exact absurd rfl hx
  | organizationMember => rw [Role.isHeld, Role.isHeld, h.organizations, hp.organizations]
  | author =>
    rw [Role.isHeld, Role.isHeld, h.id]
    exact decide_eq_decide.mpr (hp.authors w.id)
  | curator =>
    rw [Role.isHeld, Role.isHeld, h.id]
    exact decide_eq_decide.mpr (hp.curators w.id)
  | tester =>
    rw [Role.isHeld, Role.isHeld, h.id]
    exact decide_eq_decide.mpr (hp.testers w.id)

theorem mem_rolesOn_iff (h : u.SameStanding w) (hp : p.SameAudience q) {x : Role}
    (hx : x ≠ .organizationAdmin) :
    x ∈ (Viewer.authenticated u).rolesOn p ↔ x ∈ (Viewer.authenticated w).rolesOn q := by
  rw [Viewer.rolesOn, Viewer.rolesOn, SortedSet.mem_ofList, SortedSet.mem_ofList,
    List.mem_filter, List.mem_filter, h.isHeld_eq hp hx]

/-- Users with the same standing are given the same answer on problems with the
same audience. -/
theorem may_eq (h : u.SameStanding w) (hp : p.SameAudience q) (hr : r.IgnoresAdmins) :
    (Viewer.authenticated u).may r p = (Viewer.authenticated w).may r q := by
  refine Rule.holdsIn_congr (s := ⟨u.capabilities, _, p⟩) (t := ⟨w.capabilities, _, q⟩) ?_
  -- Each atom is answered alike; which atoms there are does not matter, but for one role.
  intro n a ha
  cases a with
  | capability c =>
    show decide (c ∈ u.capabilities) = decide (c ∈ w.capabilities)
    rw [h.capabilities]
  | role x => exact decide_eq_decide.mpr (h.mem_rolesOn_iff hp fun hx => hr _ ha (hx ▸ rfl))
  | flag f =>
    cases f with
    | isPublic => exact hp.isPublic
    | isOrganizationPrivate => exact hp.isOrganizationPrivate

theorem accessTo_eq (h : u.SameStanding w) (hp : p.SameAudience q) :
    (Viewer.authenticated u).accessTo p = (Viewer.authenticated w).accessTo q := by
  have hsee : (Viewer.authenticated u).canSee p = (Viewer.authenticated w).canSee q :=
    h.may_eq hp Rule.ignoresAdmins_visibility
  have hedit : (Viewer.authenticated u).canEdit p = (Viewer.authenticated w).canEdit q :=
    h.may_eq hp Rule.ignoresAdmins_edit
  have hmanage : (Viewer.authenticated u).canManageSubmissions p =
      (Viewer.authenticated w).canManageSubmissions q :=
    h.may_eq hp Rule.ignoresAdmins_manageSubmissions
  rw [Viewer.accessTo, Viewer.accessTo, hsee, hedit, hmanage]

/-! ### Editorials -/

theorem isEditor_eq (h : u.SameStanding w) (hp : p.SameAudience q) :
    ((Viewer.authenticated u).rolesOn p).isEditor =
      ((Viewer.authenticated w).rolesOn q).isEditor := by
  rw [RoleSet.isEditor, RoleSet.isEditor,
    decide_eq_decide.mpr (h.mem_rolesOn_iff hp (x := .author) (by decide)),
    decide_eq_decide.mpr (h.mem_rolesOn_iff hp (x := .curator) (by decide))]

theorem canRead_eq (h : u.SameStanding w) {e f : Editorial} (he : e.SameRelease f)
    (now : Instant) :
    (Viewer.authenticated u).canRead e now = (Viewer.authenticated w).canRead f now := by
  have hedit : (Viewer.authenticated u).canEdit e.problem =
      (Viewer.authenticated w).canEdit f.problem :=
    h.may_eq he.problem Rule.ignoresAdmins_edit
  have hpublished : e.isPublishedAt now = f.isPublishedAt now := by
    rw [Editorial.isPublishedAt, Editorial.isPublishedAt, he.isPublic, he.publishOn]
  -- The paths are tried in one order, and each is open to both or to neither.
  have hpath : (Viewer.authenticated u).editorialPath e now =
      (Viewer.authenticated w).editorialPath f now := by
    rw [Viewer.editorialPath, Viewer.editorialPath, h.isEditor_eq he.problem, hedit, hpublished]
    show (if Capability.seePrivateSolution ∈ u.capabilities then _ else _) = _
    rw [h.capabilities]
    rfl
  rw [Viewer.canRead, Viewer.canRead, hpath]

end SameStanding

/-! ### Voting -/

namespace SameVoter

variable {u w : Profile} {p q : Problem}

/-- The same voter has the same right to vote on problems that ban alike. -/
theorem votingOn_eq (h : u.SameVoter w) (hbans : u.id ∈ p.bannedUsers ↔ u.id ∈ q.bannedUsers)
    (record : History) (now : Instant) :
    (Viewer.authenticated u).votingOn p record now =
      (Viewer.authenticated w).votingOn q record now := by
  rw [h.id] at hbans
  have hreason : Voting.reasonFor u p record now = Voting.reasonFor w q record now := by
    rw [Voting.reasonFor, Voting.reasonFor, h.participation, h.isBannedFromVoting, h.isUnlisted,
      h.id]
    simp only [hbans]
  rw [Viewer.votingOn, Viewer.votingOn, hreason]

end SameVoter

end Profile

/-- A record depends on a problem only through its identifier and its points. -/
theorem History.ofSubmissions_congr {p q : Problem} (hid : p.id = q.id)
    (hpoints : p.points = q.points) (submissions : List Submission) (user : ProfileId) :
    ofSubmissions submissions user p = ofSubmissions submissions user q := by
  rw [ofSubmissions, ofSubmissions]
  simp only [Submission.countsFor, extend, hid, hpoints]

/-- **Access and voting do not interfere.**  Access reads nothing of a user but
identifier, capabilities and organizations: staff and superuser flags, names that
grant nothing, administered organizations, contests and marks leave the lists, the
decisions and the reading of editorials as they are.  Voting in turn reads neither
capabilities nor organizations. -/
theorem access_and_voting_do_not_interfere :
    (∀ u w : Profile, u.SameStanding w →
      (Viewer.authenticated u).visible = (Viewer.authenticated w).visible ∧
      (Viewer.authenticated u).editable = (Viewer.authenticated w).editable ∧
      (Viewer.authenticated u).manageable = (Viewer.authenticated w).manageable ∧
      (∀ p q : Problem, p.SameAudience q →
        (Viewer.authenticated u).accessTo p = (Viewer.authenticated w).accessTo q) ∧
      (∀ e f : Editorial, e.SameRelease f → ∀ now : Instant,
        (Viewer.authenticated u).canRead e now = (Viewer.authenticated w).canRead f now)) ∧
    (∀ u w : Profile, u.SameVoter w → ∀ p q : Problem,
      (u.id ∈ p.bannedUsers ↔ u.id ∈ q.bannedUsers) →
      (∀ (record : History) (now : Instant),
        (Viewer.authenticated u).votingOn p record now =
          (Viewer.authenticated w).votingOn q record now) ∧
      (p.id = q.id → p.points = q.points →
        ∀ (submissions : List Submission) (now : Instant),
          (Viewer.authenticated u).votingOn p (.ofSubmissions submissions u.id p) now =
            (Viewer.authenticated w).votingOn q (.ofSubmissions submissions w.id q) now)) := by
  constructor
  · intro u w h
    exact ⟨h.filter_eq Rule.ignoresAdmins_visibility, h.filter_eq Rule.ignoresAdmins_edit,
      h.filter_eq Rule.ignoresAdmins_manageSubmissions, fun p q hp => h.accessTo_eq hp,
      fun e f he now => h.canRead_eq he now⟩
  · intro u w h p q hbans
    refine ⟨h.votingOn_eq hbans, fun hid hpoints submissions now => ?_⟩
    rw [← h.id, History.ofSubmissions_congr hid hpoints]
    exact h.votingOn_eq hbans _ now

/-- A superuser to whom no name is granted. -/
def rootProfile : Profile := { id := 7, isSuperuser := true, organizations := SortedSet.ofList [5] }

/-- To this user all names are granted, and one that means nothing; there are marks
against the user, and a contest without an end. -/
def markedProfile : Profile where
  id := 7
  username := "marked"
  isStaff := true
  isUnlisted := true
  isBannedFromVoting := true
  permissions := SortedSet.ofList ("problem:misspelt" :: Capability.all.map Capability.permission)
  organizations := SortedSet.ofList [5]
  administered := SortedSet.ofList [9]
  participation := some ⟨3, none⟩

/-- A problem that two people edit and from which one of them is banned. -/
def sharedProblem : Problem where
  id := 1
  code := "shared"
  name := "Shared"
  points := .zero
  isPublic := false
  isOrganizationPrivate := true
  authors := Roster.addAll ∅ [7, 8]
  curators := ∅
  testers := ∅
  organizations := SortedSet.ofList [5]
  bannedUsers := SortedSet.ofList [7]
  code_length := by decide
  code_chars := by decide
  points_score := Problem.isScore_zero

/-- The same problem by another code, with the people in another order and one more ban. -/
def renamedProblem : Problem :=
  { sharedProblem with
    code := "renamed", name := "Renamed", authors := Roster.addAll ∅ [8, 7]
    bannedUsers := SortedSet.ofList [7, 9]
    code_length := by decide, code_chars := by decide }

theorem access_and_voting_do_not_interfere_marked :
    rootProfile ≠ markedProfile ∧ sharedProblem ≠ renamedProblem ∧
    (Viewer.authenticated rootProfile).visible = (Viewer.authenticated markedProfile).visible ∧
    (Viewer.authenticated rootProfile).accessTo sharedProblem =
      (Viewer.authenticated markedProfile).accessTo renamedProblem ∧
    (∀ now : Instant,
      (Viewer.authenticated rootProfile).canRead ⟨sharedProblem, true, now, [], []⟩ now =
        (Viewer.authenticated markedProfile).canRead ⟨renamedProblem, true, now, [8], []⟩ now) ∧
    (∀ (submissions : List Submission) (now : Instant),
      (Viewer.authenticated rootProfile).votingOn sharedProblem
          (.ofSubmissions submissions 7 sharedProblem) now =
        (Viewer.authenticated { id := 7 }).votingOn renamedProblem
          (.ofSubmissions submissions 7 renamedProblem) now) := by
  have hstanding : rootProfile.SameStanding markedProfile := by
    refine ⟨rfl, SortedSet.ext fun c => ?_, rfl⟩
    rw [Profile.mem_capabilities, Profile.mem_capabilities]
    refine iff_of_true (.inl rfl) (.inr ?_)
    exact SortedSet.mem_ofList.mpr
      (List.mem_cons_of_mem _ (List.mem_map_of_mem (Capability.mem_all c)))
  have haudience : sharedProblem.SameAudience renamedProblem :=
    ⟨rfl, rfl, fun id => (List.Perm.swap 8 7 []).mem_iff, fun _ => Iff.rfl, fun _ => Iff.rfl, rfl⟩
  have hvoter : rootProfile.SameVoter { id := 7 } := ⟨rfl, rfl, rfl, rfl⟩
  obtain ⟨haccess, hvoting⟩ := access_and_voting_do_not_interfere
  obtain ⟨hvisible, -, -, hdecisions, heditorials⟩ := haccess _ _ hstanding
  obtain ⟨-, hsubmissions⟩ := hvoting _ _ hvoter sharedProblem renamedProblem (by decide)
  refine ⟨?_, ?_, hvisible, hdecisions _ _ haudience, ?_, hsubmissions rfl rfl⟩
  · intro h
    cases congrArg Profile.isSuperuser h
  · intro h
    exact absurd (congrArg Problem.code h) (by decide)
  · exact fun now => heditorials ⟨_, true, now, [], []⟩ ⟨_, true, now, [8], []⟩
      ⟨haudience, rfl, rfl⟩ now

end JudgePolicy
