/-
The audit log: what is reported while decisions are made.

An `Audited` value carries the events of its making, in their order.  The
functions here make the same decisions as those on `Viewer`, and report them:

* `value_access`, `value_editorialPath`, `value_voting` — the decision is the
  same as without the log.

Design notes: whenever capabilities are looked up for a decision, each granted
name that is no capability is reported again.
-/
import JudgePolicy.Editorial
import JudgePolicy.Voting
namespace JudgePolicy

/-- Something worth reporting. -/
inductive Event where
  /-- A granted name that is no capability. -/
  | ignoredPermission (profile : ProfileId) (permission : String)
  | problemAccess (problem : String) (viewer : Option ProfileId) (access : Access)
  | editorialAccess (problem : String) (viewer : Option ProfileId) (path : Editorial.Path)
  | voting (problem : String) (viewer : Option ProfileId) (decision : Voting.Decision)
  deriving DecidableEq

namespace Event

/-- How a viewer is shown. -/
def viewerText : Option ProfileId → String
  | none => "None"
  | some id => "Some(" ++ toString id.toInt ++ ")"

def flagText (b : Bool) : String := if b then "true" else "false"

/-- The fields of an event, as the log shows them. -/
def fields : Event → List (String × String)
  | ignoredPermission profile permission => [
      ("level", "TRACE"),
      ("message", "Ignoring unknown permission"),
      ("profile", toString profile.toInt),
      ("permission", permission)]
  | problemAccess problem viewer access => [
      ("level", "DEBUG"),
      ("message", "Evaluated problem access"),
      ("problem", problem),
      ("viewer", viewerText viewer),
      ("accessible", flagText access.accessible),
      ("editable", flagText access.editable),
      ("subs_manageable", flagText access.manageable)]
  | editorialAccess problem viewer path => [
      ("level", "DEBUG"),
      ("message", "Evaluated editorial access"),
      ("problem", problem),
      ("viewer", viewerText viewer),
      ("path", path.name)]
  | voting problem viewer decision => [
      ("level", "DEBUG"),
      ("message", "Evaluated vote permission"),
      ("problem", problem),
      ("viewer", viewerText viewer),
      ("permission", decision.permission.title),
      ("reason", decision.reason.title)]

end Event

/-- A value and the events reported while it was found. -/
structure Audited (α : Type) where
  value : α
  events : List Event

namespace Audited

def report (e : Event) : Audited Unit := ⟨(), [e]⟩

instance : Monad Audited where
  pure a := ⟨a, []⟩
  bind x f := ⟨(f x.value).value, x.events ++ (f x.value).events⟩

variable {α β : Type}

@[simp] theorem value_pure (a : α) : (pure a : Audited α).value = a := rfl

@[simp] theorem events_pure (a : α) : (pure a : Audited α).events = [] := rfl

@[simp] theorem value_bind (x : Audited α) (f : α → Audited β) :
    (x >>= f).value = (f x.value).value := rfl

@[simp] theorem events_bind (x : Audited α) (f : α → Audited β) :
    (x >>= f).events = x.events ++ (f x.value).events := rfl

@[simp] theorem events_report (e : Event) : (report e).events = [e] := rfl

end Audited

namespace Audit

open Audited

/-- The viewer's capabilities, reporting the names that are ignored. -/
def capabilities (v : Viewer) : Audited CapabilitySet where
  value := v.capabilities
  events :=
    match v with
    | .anonymous => []
    | .authenticated p => v.ignoredPermissions.map (.ignoredPermission p.id)

/-- Whether a rule grants to a viewer on a problem. -/
def may (v : Viewer) (r : Rule) (p : Problem) : Audited Bool := do
  let cs ← capabilities v
  return r.holds cs (v.rolesOn p) p

/-- The filter that a rule leaves for a viewer. -/
def filter (v : Viewer) (r : Rule) : Audited Filter := do
  let cs ← capabilities v
  return r.residual v cs

/-- All three decisions about a problem. -/
def access (v : Viewer) (p : Problem) : Audited Access := do
  let cs ← capabilities v
  let decide (r : Rule) : Bool := r.holds cs (v.rolesOn p) p
  let result : Access := ⟨decide .visibility, decide .edit, decide .manageSubmissions⟩
  report (.problemAccess p.code v.id? result)
  return result

/-- The path of a viewer that is no editor: editing rights come first, then
publication. -/
def laterPath (v : Viewer) (e : Editorial) (now : Instant) : Audited Editorial.Path := do
  let editable ← may v .edit e.problem
  return if editable then .problemEditable
    else if e.isPublishedAt now then .published
    else .denied

/-- The first path that opens an editorial.  Editing rights are looked up only
where the paths before them are closed. -/
def openingPath (v : Viewer) (e : Editorial) (now : Instant) : Audited Editorial.Path := do
  let cs ← capabilities v
  if Capability.seePrivateSolution ∈ cs then return .seePrivateSolution
  else if (v.rolesOn e.problem).isEditor then return .problemEditor
  else laterPath v e now

/-- The first path that opens an editorial, and its report. -/
def editorialPath (v : Viewer) (e : Editorial) (now : Instant) : Audited Editorial.Path := do
  let path ← openingPath v e now
  report (.editorialAccess e.problem.code v.id? path)
  return path

def canRead (v : Viewer) (e : Editorial) (now : Instant) : Audited Bool := do
  let path ← editorialPath v e now
  return path != .denied

/-- What a viewer may do with the votes on a problem, and why. -/
def voting (v : Viewer) (p : Problem) (h : History) (now : Instant) :
    Audited Voting.Decision := do
  let decision := v.votingOn p h now
  report (.voting p.code v.id? decision)
  return decision

@[simp] theorem value_capabilities (v : Viewer) : (capabilities v).value = v.capabilities := rfl

@[simp] theorem value_may (v : Viewer) (r : Rule) (p : Problem) :
    (may v r p).value = v.may r p := rfl

@[simp] theorem value_filter (v : Viewer) (r : Rule) : (filter v r).value = v.filter r := rfl

@[simp] theorem value_access (v : Viewer) (p : Problem) :
    (access v p).value = v.accessTo p := rfl

@[simp] theorem value_laterPath (v : Viewer) (e : Editorial) (now : Instant) :
    (laterPath v e now).value =
      if v.canEdit e.problem then .problemEditable
      else if e.isPublishedAt now then .published
      else .denied := rfl

@[simp] theorem value_openingPath (v : Viewer) (e : Editorial) (now : Instant) :
    (openingPath v e now).value = v.editorialPath e now := by
  simp only [openingPath, value_bind, value_capabilities, Viewer.editorialPath]
  by_cases see : Capability.seePrivateSolution ∈ v.capabilities
  · simp [see]
  · by_cases editor : (v.rolesOn e.problem).isEditor = true <;> simp [see, editor]

@[simp] theorem value_editorialPath (v : Viewer) (e : Editorial) (now : Instant) :
    (editorialPath v e now).value = v.editorialPath e now := by
  simp [editorialPath]

@[simp] theorem value_canRead (v : Viewer) (e : Editorial) (now : Instant) :
    (canRead v e now).value = v.canRead e now := by
  simp [canRead, Viewer.canRead]

@[simp] theorem value_voting (v : Viewer) (p : Problem) (h : History) (now : Instant) :
    (voting v p h now).value = v.votingOn p h now := rfl

end Audit

end JudgePolicy
