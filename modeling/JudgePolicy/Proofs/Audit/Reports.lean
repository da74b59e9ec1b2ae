/-
What the audit log says of the decisions.

A log is read by the fields of its events, as it is shown.  It begins with what a look at
the viewer's capabilities leaves there, and ends with the decision:

* `tracesIgnored_capabilities` — a look at the capabilities reports every granted name that
  is no capability, and nothing else;
* `events_access`, `events_canRead`, `events_voting` — the events of each decision;
* `events_openingPath_of_early`, `events_openingPath_of_late` — how many such looks the
  decision about an editorial takes;
* `isFirst_editorialPath` — the path that is reported is the first open one;
* `logs_tell_the_decisions` — all of this, in terms of the fields that are shown.

Design notes: how often the ignored names are reported depends on how far a decision gets.
The rights to edit are looked up anew, and only for viewers that two other paths have not
let through, so these find each ignored name twice in the log of an editorial.
-/
import JudgePolicy.Audit
import JudgePolicy.Proofs.Editorial.Publication
import Mathlib.Data.List.Forall2
namespace JudgePolicy

/-- The event has these fields, among others. -/
def Event.Shows (e : Event) (fields : List (String × String)) : Prop :=
  ∀ f ∈ fields, e.fields.lookup f.1 = some f.2

instance (e : Event) (fields : List (String × String)) : Decidable (e.Shows fields) :=
  inferInstanceAs (Decidable (∀ f ∈ fields, e.fields.lookup f.1 = some f.2))

/-- The event reports a granted name of the user as one that names no capability. -/
def Event.TracesName (u : Profile) (e : Event) (name : String) : Prop :=
  e.Shows [
    ("level", "TRACE"),
    ("message", "Ignoring unknown permission"),
    ("profile", toString u.id.toInt),
    ("permission", name)]

/-- The events report each granted name that is no capability, in ascending order.  The
names of a superuser are not looked at, and who is anonymous has none. -/
inductive Viewer.TracesIgnored : Viewer → List Event → Prop where
  | anonymous : TracesIgnored .anonymous []
  | superuser {u : Profile} (super : u.isSuperuser = true) : TracesIgnored (.authenticated u) []
  | user {u : Profile} {traces : List Event} {names : List String}
      (super : u.isSuperuser = false) (ascending : names.Pairwise (· < ·))
      (ignored : ∀ s, s ∈ names ↔ s ∈ u.permissions ∧ ∀ c : Capability, c.permission ≠ s)
      (traced : List.Forall₂ (Event.TracesName u) traces names) :
      TracesIgnored (.authenticated u) traces

/-- A name is no capability's exactly if no capability is found under it. -/
theorem Capability.ofPermission?_eq_none_iff {s : String} :
    ofPermission? s = none ↔ ∀ c : Capability, c.permission ≠ s := by
  constructor
  · rintro hnone c rfl
    rw [ofPermission?_permission] at hnone
    cases hnone
  · intro hne
    cases hs : ofPermission? s with
    | none => rfl
    | some c => exact absurd (permission_of_ofPermission? hs) (hne c)

namespace Editorial.Path

/-- All paths, in the order in which they are tried. -/
def all : List Path := [seePrivateSolution, problemEditor, problemEditable, published, denied]

/-- What makes a path apply to a viewer, whatever the other paths. -/
def Applies (v : Viewer) (e : Editorial) (now : Instant) : Path → Prop
  | seePrivateSolution => Capability.seePrivateSolution ∈ v.capabilities
  | problemEditor => v.IsEditorOf e.problem
  | problemEditable => v.canEdit e.problem = true
  | published => e.isPublic = true ∧ e.publishOn ≤ now
  | denied => True

/-- The path applies, and none that is tried before it does. -/
def IsFirst (v : Viewer) (e : Editorial) (now : Instant) (path : Path) : Prop :=
  path.Applies v e now ∧ ∀ q ∈ all.takeWhile (· ≠ path), ¬q.Applies v e now

end Editorial.Path

namespace Audit

open Audited

variable {v : Viewer} {p : Problem} {e : Editorial} {now : Instant}

/-! ### Ignored names -/

theorem tracesIgnored_capabilities (v : Viewer) :
    v.TracesIgnored (capabilities v).events := by
  cases v with
  | anonymous => exact .anonymous
  | authenticated u =>
    cases hsuper : u.isSuperuser with
    | true =>
      have hnone : (capabilities (.authenticated u)).events = [] := by
        simp [capabilities, Viewer.ignoredPermissions, hsuper]
      rw [hnone]
      exact .superuser hsuper
    | false =>
      have hnames : Viewer.ignoredPermissions (.authenticated u) =
          u.permissions.toList.filter fun s => (Capability.ofPermission? s).isNone := by
        simp [Viewer.ignoredPermissions, hsuper]
      have hascending : (Viewer.ignoredPermissions (.authenticated u)).Pairwise (· < ·) := by
        rw [hnames]
        exact (u.permissions.ascending.filter _).imp fun h => compareOfLessAndEq_eq_lt.mp h
      have hignored : ∀ s, s ∈ Viewer.ignoredPermissions (.authenticated u) ↔
          s ∈ u.permissions ∧ ∀ c : Capability, c.permission ≠ s := by
        intro s
        rw [hnames, List.mem_filter, Option.isNone_iff_eq_none,
          Capability.ofPermission?_eq_none_iff, SortedSet.mem_toList]
      refine .user hsuper hascending hignored ?_
      show List.Forall₂ (Event.TracesName u)
        ((Viewer.ignoredPermissions (.authenticated u)).map (.ignoredPermission u.id)) _
      rw [List.forall₂_map_left_iff, List.forall₂_same]
      intro s _
      simp [Event.TracesName, Event.Shows, Event.fields, List.lookup_cons]

/-! ### The events of a decision -/

theorem events_access (v : Viewer) (p : Problem) :
    (access v p).events =
      (capabilities v).events ++ [.problemAccess p.code v.id? (v.accessTo p)] :=
  rfl

theorem events_laterPath : (laterPath v e now).events = (capabilities v).events := by
  rw [laterPath, events_bind, events_pure, List.append_nil, may, events_bind, events_pure,
    List.append_nil]

/-- Where one of the first two paths is open, the capabilities are looked up once. -/
theorem events_openingPath_of_early
    (h : Capability.seePrivateSolution ∈ v.capabilities ∨ v.IsEditorOf e.problem) :
    (openingPath v e now).events = (capabilities v).events := by
  rw [← Viewer.isEditor_iff] at h
  rw [openingPath, events_bind, value_capabilities]
  by_cases hsee : Capability.seePrivateSolution ∈ v.capabilities
  · rw [if_pos hsee, events_pure, List.append_nil]
  · rw [if_neg hsee, if_pos (h.resolve_left hsee), events_pure, List.append_nil]

/-- Where both are closed, the rights to edit are looked up, and the capabilities again. -/
theorem events_openingPath_of_late
    (hsee : Capability.seePrivateSolution ∉ v.capabilities) (heditor : ¬v.IsEditorOf e.problem) :
    (openingPath v e now).events = (capabilities v).events ++ (capabilities v).events := by
  rw [← Viewer.isEditor_iff] at heditor
  rw [openingPath, events_bind, value_capabilities, if_neg hsee, if_neg heditor,
    events_laterPath]

theorem events_canRead (v : Viewer) (e : Editorial) (now : Instant) :
    (canRead v e now).events =
      (openingPath v e now).events ++
        [.editorialAccess e.problem.code v.id? (v.editorialPath e now)] := by
  rw [canRead, events_bind, events_pure, List.append_nil, editorialPath, events_bind,
    value_openingPath]
  rfl

theorem events_voting (v : Viewer) (p : Problem) (h : History) (now : Instant) :
    (voting v p h now).events = [.voting p.code v.id? (v.votingOn p h now)] :=
  rfl

/-- The path of a viewer is the first one that is open. -/
theorem isFirst_editorialPath (v : Viewer) (e : Editorial) (now : Instant) :
    (v.editorialPath e now).IsFirst v e now := by
  rw [Viewer.editorialPath]
  -- One condition after the other; in each case all earlier ones are known to fail.
  by_cases hsee : Capability.seePrivateSolution ∈ v.capabilities
  · rw [if_pos hsee]
    exact ⟨hsee, by simp [Editorial.Path.all]⟩
  rw [if_neg hsee]
  by_cases heditor : v.IsEditorOf e.problem
  · rw [if_pos (Viewer.isEditor_iff.mpr heditor)]
    exact ⟨heditor, by simp [Editorial.Path.all, Editorial.Path.Applies, hsee]⟩
  rw [if_neg (mt Viewer.isEditor_iff.mp heditor)]
  by_cases hedit : v.canEdit e.problem = true
  · rw [if_pos hedit]
    exact ⟨hedit, by simp [Editorial.Path.all, Editorial.Path.Applies, hsee, heditor]⟩
  rw [if_neg hedit]
  by_cases hpublished : e.isPublic = true ∧ e.publishOn ≤ now
  · rw [if_pos (Editorial.isPublishedAt_iff.mpr hpublished)]
    exact ⟨hpublished, by simp [Editorial.Path.all, Editorial.Path.Applies, hsee, heditor, hedit]⟩
  rw [if_neg (mt Editorial.isPublishedAt_iff.mp hpublished)]
  exact ⟨trivial,
    by simp [Editorial.Path.all, Editorial.Path.Applies, hsee, heditor, hedit, hpublished]⟩

end Audit

/-! ### What the log shows -/

namespace Event

theorem shows_problemAccess (code : String) (viewer : Option ProfileId) (a : Access) :
    (problemAccess code viewer a).Shows [
      ("level", "DEBUG"), ("message", "Evaluated problem access"), ("problem", code),
      ("accessible", flagText a.accessible), ("editable", flagText a.editable),
      ("subs_manageable", flagText a.manageable)] := by
  simp [Shows, fields, List.lookup_cons]

theorem shows_editorialAccess (code : String) (viewer : Option ProfileId)
    (path : Editorial.Path) :
    (editorialAccess code viewer path).Shows [
      ("level", "DEBUG"), ("message", "Evaluated editorial access"), ("problem", code),
      ("path", path.name)] := by
  simp [Shows, fields, List.lookup_cons]

theorem shows_voting (code : String) (viewer : Option ProfileId) (d : Voting.Decision) :
    (voting code viewer d).Shows [
      ("level", "DEBUG"), ("message", "Evaluated vote permission"), ("problem", code),
      ("permission", d.permission.title), ("reason", d.reason.title)] := by
  simp [Shows, fields, List.lookup_cons]

end Event

/-- **Logs tell the decisions.**  The log of the decisions about a problem reports the names
that are ignored and then the decisions.  The log of an editorial reports the ignored names,
once more if the viewer neither holds the right to see unpublished editorials nor edits the
problem, and then the first open path; the editorial is open unless that is `denied`.  The
log of a decision about votes reports the permission and the reason, and no name.  What is
decided is what is decided without a log. -/
theorem logs_tell_the_decisions (v : Viewer) :
    ∃ traces, v.TracesIgnored traces ∧
      (∀ p : Problem,
        let decided := Audit.access v p
        decided.value = v.accessTo p ∧
        ∃ e, decided.events = traces ++ [e] ∧ e.Shows [
          ("level", "DEBUG"), ("message", "Evaluated problem access"), ("problem", p.code),
          ("accessible", Event.flagText decided.value.accessible),
          ("editable", Event.flagText decided.value.editable),
          ("subs_manageable", Event.flagText decided.value.manageable)]) ∧
      (∀ (editorial : Editorial) (now : Instant),
        let decided := Audit.canRead v editorial now
        let early := Capability.seePrivateSolution ∈ v.capabilities ∨
          v.IsEditorOf editorial.problem
        decided.value = v.canRead editorial now ∧
        ∃ (again : List Event) (path : Editorial.Path) (e : Event),
          decided.events = traces ++ again ++ [e] ∧
          (early → again = []) ∧ (¬early → again = traces) ∧
          path.IsFirst v editorial now ∧ (decided.value = true ↔ path ≠ .denied) ∧ e.Shows [
            ("level", "DEBUG"), ("message", "Evaluated editorial access"),
            ("problem", editorial.problem.code), ("path", path.name)]) ∧
      ∀ (p : Problem) (h : History) (now : Instant),
        let decided := Audit.voting v p h now
        decided.value = v.votingOn p h now ∧
        ∃ e, decided.events = [e] ∧ e.Shows [
          ("level", "DEBUG"), ("message", "Evaluated vote permission"), ("problem", p.code),
          ("permission", decided.value.permission.title),
          ("reason", decided.value.reason.title)] := by
  refine ⟨(Audit.capabilities v).events, Audit.tracesIgnored_capabilities v, ?access, ?canRead,
    ?voting⟩
  case access =>
    intro p decided
    exact ⟨rfl, _, Audit.events_access v p, Event.shows_problemAccess _ _ _⟩
  case canRead =>
    intro editorial now decided early
    have hpath := Audit.isFirst_editorialPath v editorial now
    have hvalue : decided.value = true ↔ v.editorialPath editorial now ≠ .denied := by
      rw [Audit.value_canRead, Viewer.canRead, bne_iff_ne]
    refine ⟨Audit.value_canRead v editorial now, ?_⟩
    by_cases h : early
    · refine ⟨[], _, _, ?_, fun _ => rfl, fun hlate => absurd h hlate, hpath, hvalue,
        Event.shows_editorialAccess _ v.id? _⟩
      rw [Audit.events_canRead, Audit.events_openingPath_of_early h, List.append_nil]
    · refine ⟨_, _, _, ?_, fun hearly => absurd hearly h, fun _ => rfl, hpath, hvalue,
        Event.shows_editorialAccess _ v.id? _⟩
      obtain ⟨hsee, heditor⟩ := not_or.mp h
      rw [Audit.events_canRead, Audit.events_openingPath_of_late hsee heditor]
  case voting =>
    intro p h now decided
    exact ⟨rfl, _, Audit.events_voting v p h now, Event.shows_voting _ _ _⟩

/-- A user with two names that are no capabilities and one that is. -/
def volunteer : Profile :=
  { id := 9, permissions := SortedSet.ofList ["contest:manage", "problem:see_all", "blog:post"] }

/-- The volunteer is refused what is not published, and both names are reported twice on
the way; the log of the problem reports them once. -/
theorem logs_tell_the_decisions_volunteer :
    let reader := Viewer.authenticated volunteer
    let date : Instant := ⟨1000, 0, by decide⟩
    let editorial : Editorial := ⟨unannouncedProblem, false, date, [9], []⟩
    ∃ traces, reader.TracesIgnored traces ∧ traces.length = 2 ∧
      (∃ e, (Audit.access reader unannouncedProblem).events = traces ++ [e] ∧
        e.Shows [("accessible", "true"), ("editable", "false")]) ∧
      ∃ e, (Audit.canRead reader editorial date).events = traces ++ traces ++ [e] ∧
        e.Shows [("path", "denied")] := by
  intro reader date editorial
  obtain ⟨traces, htraces, haccess, hread, -⟩ := logs_tell_the_decisions reader
  obtain ⟨-, e, hevents, hshows⟩ := haccess unannouncedProblem
  obtain ⟨-, again, path, f, hlog, -, hagain, -, hopen, hpath⟩ := hread editorial date
  have hlength : traces.length = 2 := by
    have hthree : (Audit.access reader unannouncedProblem).events.length = 3 := by decide
    rw [hevents, List.length_append, List.length_singleton] at hthree
    omega
  have hlate : ¬(Capability.seePrivateSolution ∈ reader.capabilities ∨
      reader.IsEditorOf unannouncedProblem) := by
    rw [← Viewer.isEditor_iff]
    decide
  obtain rfl := hagain hlate
  have hdenied : path = .denied := by
    by_contra hne
    exact absurd (hopen.mpr hne) (by decide)
  subst hdenied
  refine ⟨again, htraces, hlength, ⟨e, hevents, ?_⟩, f, hlog, ?_⟩
  · exact fun field hfield => hshows field (by revert field; decide)
  · exact fun field hfield => hpath field (by revert field; decide)

end JudgePolicy
