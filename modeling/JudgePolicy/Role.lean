/-
Roles: what a user is to one problem.

* `Viewer.mem_rolesOn` — which of the five roles a viewer has on a problem.
-/
import JudgePolicy.Problem
namespace JudgePolicy

/-- A role on a problem. -/
inductive Role where
  | author
  | curator
  | tester
  | organizationMember
  /-- Found out for callers; no rule grants anything to it. -/
  | organizationAdmin
  deriving DecidableEq

namespace Role

/-- All roles, in ascending order. -/
def all : List Role := [author, curator, tester, organizationMember, organizationAdmin]

/-- Roles are ordered by their place in the list of all. -/
instance : Ord Role := ⟨compareOn (all.idxOf ·)⟩

instance : Std.TransOrd Role := inferInstanceAs (Std.TransCmp (compareOn (all.idxOf ·)))

instance : Std.LawfulEqOrd Role :=
  lawfulEqCmp_compareOn fun a b => by cases a <;> cases b <;> decide

theorem mem_all (r : Role) : r ∈ all := by
  cases r <;> decide

def name : Role → String
  | author => "author"
  | curator => "curator"
  | tester => "tester"
  | organizationMember => "organization_member"
  | organizationAdmin => "organization_admin"

def ofName? (s : String) : Option Role := all.find? (·.name == s)

/-- Whether a profile has a role on a problem. -/
def isHeld (p : Profile) (problem : Problem) : Role → Bool
  | author => decide (p.id ∈ problem.authors)
  | curator => decide (p.id ∈ problem.curators)
  | tester => decide (p.id ∈ problem.testers)
  | organizationMember => p.organizations.meets problem.organizations
  | organizationAdmin => p.administered.meets problem.organizations

end Role

abbrev RoleSet := SortedSet Role

namespace RoleSet

def isEditor (roles : RoleSet) : Bool :=
  decide (Role.author ∈ roles) || decide (Role.curator ∈ roles)

def canViewUnpublished (roles : RoleSet) : Bool :=
  roles.isEditor || decide (Role.tester ∈ roles)

end RoleSet

/-- The roles a viewer has on a problem; an anonymous one has none. -/
def Viewer.rolesOn (v : Viewer) (problem : Problem) : RoleSet :=
  match v with
  | .anonymous => ∅
  | .authenticated p => SortedSet.ofList (Role.all.filter (Role.isHeld p problem))

/-- A viewer has the roles that the viewer's profile holds. -/
theorem Viewer.mem_rolesOn {v : Viewer} {problem : Problem} {r : Role} :
    r ∈ v.rolesOn problem ↔ ∃ p, v.profile? = some p ∧ r.isHeld p problem = true := by
  cases v with
  | anonymous => simp [rolesOn, profile?]
  | authenticated p => simp [rolesOn, profile?, Role.mem_all]

end JudgePolicy
