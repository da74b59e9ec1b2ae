/-
The three decisions about problems: who sees them, who edits them, and who
manages their submissions.

Each is a rule.  `canSee`, `canEdit` and `canManageSubmissions` decide for one
problem; `visible`, `editable` and `manageable` are the filters for lists.

* `selects_visible`, `selects_editable`, `selects_manageable` — the lists hold
  exactly the problems that are granted one by one.
-/
import JudgePolicy.Rule
namespace JudgePolicy

namespace Rule

/-- Who may change a problem: holders of `editAll`; holders of `editOwn` that
are authors or curators; and holders of `editOwn` and `editPublic` if the
problem is public. -/
def edit : Rule :=
  any [
    capability .editAll,
    all [capability .editOwn, any [role .author, role .curator]],
    all [capability .editOwn, capability .editPublic, flag .isPublic]]

/-- Who may see a problem.  Administering an organization grants nothing. -/
def visibility : Rule :=
  any [
    capability .seeAll,
    all [flag .isPublic,
      any [not (flag .isOrganizationPrivate), role .organizationMember]],
    all [flag .isOrganizationPrivate, role .organizationMember,
      capability .seeOrganization],
    role .author,
    role .curator,
    role .tester,
    edit]

/-- Who may rejudge submissions and otherwise act on them. -/
def manageSubmissions : Rule :=
  any [capability .editAll, all [capability .rejudge, edit]]

end Rule

/-- The three decisions about one problem. -/
structure Access where
  accessible : Bool
  editable : Bool
  manageable : Bool
  deriving DecidableEq

namespace Viewer

/-- Whether a rule grants to a viewer on a problem. -/
def may (v : Viewer) (r : Rule) (p : Problem) : Bool :=
  r.holds v.capabilities (v.rolesOn p) p

def canSee (v : Viewer) (p : Problem) : Bool := v.may .visibility p

def canEdit (v : Viewer) (p : Problem) : Bool := v.may .edit p

/-- Whether the viewer may manage the submissions to a problem. -/
def canManageSubmissions (v : Viewer) (p : Problem) : Bool := v.may .manageSubmissions p

def accessTo (v : Viewer) (p : Problem) : Access :=
  ⟨v.canSee p, v.canEdit p, v.canManageSubmissions p⟩

/-- The filter that a rule leaves for the viewer. -/
def filter (v : Viewer) (r : Rule) : Filter := r.residual v v.capabilities

/-- The problems the viewer may see. -/
def visible (v : Viewer) : Filter := v.filter .visibility

/-- The problems the viewer may edit. -/
def editable (v : Viewer) : Filter := v.filter .edit

/-- The problems whose submissions the viewer may manage. -/
def manageable (v : Viewer) : Filter := v.filter .manageSubmissions

theorem selects_filter (v : Viewer) (r : Rule) (p : Problem) :
    (v.filter r).selects p = v.may r p :=
  Rule.selects_residual v v.capabilities p r

theorem selects_visible (v : Viewer) (p : Problem) : v.visible.selects p = v.canSee p :=
  v.selects_filter _ p

theorem selects_editable (v : Viewer) (p : Problem) : v.editable.selects p = v.canEdit p :=
  v.selects_filter _ p

theorem selects_manageable (v : Viewer) (p : Problem) :
    v.manageable.selects p = v.canManageSubmissions p :=
  v.selects_filter _ p

end Viewer

end JudgePolicy
