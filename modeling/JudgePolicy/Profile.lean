/-
Profiles of users, and the viewers that decisions are made for.

* `Profile.mem_capabilities` — a profile holds a capability if it is a
  superuser's or if the capability's permission name is granted;
* `Viewer.mem_capabilities` — an anonymous viewer holds none.

Design notes: granted names that name no capability change nothing here; they
are reported by `Viewer.ignoredPermissions`.
-/
import JudgePolicy.Capability
import JudgePolicy.Time.Instant
namespace JudgePolicy

abbrev ProfileId := Int32

abbrev ProblemId := Int32

abbrev OrganizationId := Int32

abbrev ContestId := Int32

/-- The contest a user takes part in at present; some contests never end. -/
structure Participation where
  contest : ContestId
  endsAt : Option Instant
  deriving DecidableEq

/-- Whether the participation still runs. -/
def Participation.isLiveAt (p : Participation) (now : Instant) : Bool :=
  match p.endsAt with
  | none => true
  | some stop => decide (now < stop)

/-- What is known of a user. -/
structure Profile where
  id : ProfileId
  username : String := ""
  isSuperuser : Bool := false
  isStaff : Bool := false
  isUnlisted : Bool := false
  isBannedFromVoting : Bool := false
  /-- The granted permission names. -/
  permissions : SortedSet String := ∅
  organizations : SortedSet OrganizationId := ∅
  /-- The organizations the user is known to administer. -/
  administered : SortedSet OrganizationId := ∅
  participation : Option Participation := none
  deriving DecidableEq

namespace Profile

def grantPermissions (p : Profile) (names : List String) : Profile :=
  { p with permissions := p.permissions.insertAll names }

/-- Grants capabilities, under their permission names. -/
def grantCapabilities (p : Profile) (cs : List Capability) : Profile :=
  p.grantPermissions (cs.map Capability.permission)

def joinOrganizations (p : Profile) (ids : List OrganizationId) : Profile :=
  { p with organizations := p.organizations.insertAll ids }

/-- Makes the user a superuser, and staff with it. -/
def makeSuperuser (p : Profile) : Profile :=
  { p with isSuperuser := true, isStaff := true }

/-- The capabilities the profile holds. -/
def capabilities (p : Profile) : CapabilitySet :=
  if p.isSuperuser then CapabilitySet.all
  else SortedSet.ofList (p.permissions.toList.filterMap Capability.ofPermission?)

/-- A profile holds a capability if it is a superuser's, or by the capability's
permission name. -/
theorem mem_capabilities {p : Profile} {c : Capability} :
    c ∈ p.capabilities ↔ p.isSuperuser = true ∨ c.permission ∈ p.permissions := by
  rw [capabilities]
  split
  · next h => simp [h, CapabilitySet.mem_all]
  · next h =>
    simp only [SortedSet.mem_ofList, List.mem_filterMap, SortedSet.mem_toList, h,
      Bool.false_eq_true, false_or]
    constructor
    · rintro ⟨s, hs, hc⟩
      exact Capability.permission_of_ofPermission? hc ▸ hs
    · exact fun hs => ⟨_, hs, Capability.ofPermission?_permission c⟩

end Profile

/-- The party a decision is made for. -/
inductive Viewer where
  | anonymous
  | authenticated (profile : Profile)
  deriving DecidableEq

namespace Viewer

instance : Inhabited Viewer := ⟨anonymous⟩

def profile? : Viewer → Option Profile
  | anonymous => none
  | authenticated p => some p

def id? (v : Viewer) : Option ProfileId := v.profile?.map (·.id)

def isAuthenticated (v : Viewer) : Bool := v.profile?.isSome

/-- The capabilities the viewer holds. -/
def capabilities : Viewer → CapabilitySet
  | anonymous => ∅
  | authenticated p => p.capabilities

/-- The granted names that were looked at and name no capability, ascending.
Nobody looks at the names of a superuser. -/
def ignoredPermissions : Viewer → List String
  | anonymous => []
  | authenticated p =>
    if p.isSuperuser then []
    else p.permissions.toList.filter fun s => (Capability.ofPermission? s).isNone

/-- An anonymous viewer holds no capability; others hold those of their
profile. -/
theorem mem_capabilities {v : Viewer} {c : Capability} :
    c ∈ v.capabilities ↔ ∃ p, v.profile? = some p ∧
      (p.isSuperuser = true ∨ c.permission ∈ p.permissions) := by
  cases v with
  | anonymous => simp [capabilities, profile?]
  | authenticated p => simp [capabilities, profile?, Profile.mem_capabilities]

end Viewer

end JudgePolicy
