/-
Rules: who may do what to a problem, each written once.

A rule can be used in two ways.  `Rule.holds` decides about one problem, given
the viewer's capabilities and roles on it.  `Rule.residual` fixes the viewer and
leaves a filter on problems, for a list of them or for a query:

* `selects_residual` — both agree, for every rule, viewer and problem.
-/
import JudgePolicy.Filter
import JudgePolicy.Role
namespace JudgePolicy

/-- A property that a problem has by itself. -/
inductive Flag where
  | isPublic
  | isOrganizationPrivate
  deriving DecidableEq

/-- Whether a problem has a property. -/
def Flag.holds : Flag → Problem → Bool
  | isPublic, p => p.isPublic
  | isOrganizationPrivate, p => p.isOrganizationPrivate

/-- The filter for a property. -/
def Flag.filter : Flag → Filter
  | isPublic => .isPublic
  | isOrganizationPrivate => .isOrganizationPrivate

theorem Flag.selects_filter (f : Flag) (p : Problem) : f.filter.selects p = f.holds p := by
  cases f <;> rfl

/-- The filter for the problems on which a viewer has a role. -/
def Role.filter (v : Viewer) (r : Role) : Filter :=
  match v with
  | .anonymous => .never
  | .authenticated p =>
    match r with
    | .author => .authoredBy p.id
    | .curator => .curatedBy p.id
    | .tester => .testedBy p.id
    | .organizationMember => .ofOrganizations p.organizations
    | .organizationAdmin => .ofOrganizations p.administered

theorem Role.selects_filter (v : Viewer) (r : Role) (problem : Problem) :
    (r.filter v).selects problem = decide (r ∈ v.rolesOn problem) := by
  cases v with
  | anonymous => simp [filter, Filter.selects, Viewer.mem_rolesOn, Viewer.profile?]
  | authenticated p =>
    cases r <;> simp [filter, Filter.selects, Viewer.mem_rolesOn, Viewer.profile?, isHeld]

/-- A rule. -/
inductive Rule where
  | capability (c : Capability)
  | role (r : Role)
  | flag (f : Flag)
  | not (part : Rule)
  | all (parts : List Rule)
  | any (parts : List Rule)

namespace Rule

instance : Inhabited Rule := ⟨all []⟩

mutual

/-- Whether a rule grants, for capabilities and roles on one problem. -/
def holds (cs : CapabilitySet) (rs : RoleSet) (p : Problem) : Rule → Bool
  | capability c => decide (c ∈ cs)
  | role r => decide (r ∈ rs)
  | flag f => f.holds p
  | not part => !holds cs rs p part
  | all parts => allHold cs rs p parts
  | any parts => anyHolds cs rs p parts

def allHold (cs : CapabilitySet) (rs : RoleSet) (p : Problem) : List Rule → Bool
  | [] => true
  | r :: rest => holds cs rs p r && allHold cs rs p rest

def anyHolds (cs : CapabilitySet) (rs : RoleSet) (p : Problem) : List Rule → Bool
  | [] => false
  | r :: rest => holds cs rs p r || anyHolds cs rs p rest

end

mutual

/-- The filter that a rule leaves once the viewer and the viewer's capabilities
are fixed. -/
def residual (v : Viewer) (cs : CapabilitySet) : Rule → Filter
  | capability c => .constant (decide (c ∈ cs))
  | role r => r.filter v
  | flag f => f.filter
  | not part => .negation (residual v cs part)
  | all parts => .conjunction (residuals v cs parts)
  | any parts => .disjunction (residuals v cs parts)

def residuals (v : Viewer) (cs : CapabilitySet) : List Rule → List Filter
  | [] => []
  | r :: rest => residual v cs r :: residuals v cs rest

end

mutual

/-- **Agreement.**  The filter that a rule leaves selects a problem exactly if
the rule grants on it. -/
theorem selects_residual (v : Viewer) (cs : CapabilitySet) (p : Problem) (r : Rule) :
    (r.residual v cs).selects p = r.holds cs (v.rolesOn p) p := by
  cases r with
  | capability c => simp [residual, holds]
  | role r => simp [residual, holds, Role.selects_filter]
  | flag f => simp [residual, holds, Flag.selects_filter]
  | not part => simp [residual, holds, selects_residual v cs p part]
  | all parts => simp [residual, holds, all_residuals v cs p parts]
  | any parts => simp [residual, holds, any_residuals v cs p parts]

theorem all_residuals (v : Viewer) (cs : CapabilitySet) (p : Problem) (parts : List Rule) :
    (residuals v cs parts).all (Filter.selects · p) = allHold cs (v.rolesOn p) p parts := by
  cases parts with
  | nil => rfl
  | cons r rest =>
    simp [residuals, allHold, selects_residual v cs p r, all_residuals v cs p rest]

theorem any_residuals (v : Viewer) (cs : CapabilitySet) (p : Problem) (parts : List Rule) :
    (residuals v cs parts).any (Filter.selects · p) = anyHolds cs (v.rolesOn p) p parts := by
  cases parts with
  | nil => rfl
  | cons r rest =>
    simp [residuals, anyHolds, selects_residual v cs p r, any_residuals v cs p rest]

end

end Rule

end JudgePolicy
