/-
The publication of editorials.

An editorial opens to everybody at its date, and to few people before:

* `canRead_iff_readsUnpublished_or` — who reads an editorial, and when;
* `canRead_mono` — once open, an editorial stays open;
* `canRead_iff_of_lt` — before its date, only those read it who read what is unpublished;
* `ReadsLike.canRead_eq` — which parts of a viewer and a problem the answer depends on;
* `editorials_open_at_their_date` — all of this together.

Design notes: that the answer does not depend on whether the viewer sees the problem is
put as an agreement of two answers.  `ReadsLike` leaves open all that tells whoever sees
a problem from the others: testers, organizations, the two flags of the problem, and the
capabilities for seeing.
-/
import JudgePolicy.Proofs.Access.ClosedForm
import JudgePolicy.Editorial
namespace JudgePolicy

theorem Editorial.isPublishedAt_iff {e : Editorial} {now : Instant} :
    e.isPublishedAt now = true ↔ e.isPublic = true ∧ e.publishOn ≤ now := by
  rw [isPublishedAt, Bool.and_eq_true, decide_eq_true_iff]

namespace Viewer

/-- The viewer is an author or a curator of the problem. -/
def IsEditorOf (v : Viewer) (p : Problem) : Prop :=
  ∃ u, v.profile? = some u ∧ (u.id ∈ p.authors ∨ u.id ∈ p.curators)

/-- The viewer reads the editorials of a problem whether they are published or not. -/
def ReadsUnpublished (v : Viewer) (p : Problem) : Prop :=
  Capability.seePrivateSolution ∈ v.capabilities ∨ v.IsEditorOf p ∨ v.canEdit p = true

section Publication

variable {v : Viewer} {p : Problem} {e : Editorial} {now later : Instant}

theorem isEditor_iff : (v.rolesOn p).isEditor = true ↔ v.IsEditorOf p := by
  cases v with
  | anonymous => simp [IsEditorOf, profile?, rolesOn, RoleSet.isEditor]
  | authenticated u => simp [IsEditorOf, profile?, isEditor_rolesOn_iff]

theorem canRead_iff_readsUnpublished_or : v.canRead e now = true ↔
    v.ReadsUnpublished e.problem ∨ e.isPublic = true ∧ e.publishOn ≤ now := by
  rw [canRead_iff, isEditor_iff, Editorial.isPublishedAt_iff, ReadsUnpublished, or_assoc,
    or_assoc]

/-- Once open to a viewer, an editorial stays open. -/
theorem canRead_mono (h : now ≤ later) (hread : v.canRead e now = true) :
    v.canRead e later = true := by
  rw [canRead_iff_readsUnpublished_or] at hread ⊢
  obtain hunpublished | ⟨hpublic, hdate⟩ := hread
  · exact .inl hunpublished
  · exact .inr ⟨hpublic, Instant.le_trans hdate h⟩

/-- Before its date, an editorial is read as if it were never to be published. -/
theorem canRead_iff_of_lt (h : now < e.publishOn) :
    v.canRead e now = true ↔ v.ReadsUnpublished e.problem := by
  have hdate : ¬(e.isPublic = true ∧ e.publishOn ≤ now) := fun hpublished => hpublished.2 h
  rw [canRead_iff_readsUnpublished_or, or_iff_left hdate]

end Publication

/-! ### What the answer depends on -/

/-- The first viewer stands to the first problem as the second one to the second, as
far as editorials go: both viewers are editors or neither is, both hold each of the four
capabilities or neither does, and both problems are public or neither is, if that is
of use for editing. -/
structure ReadsLike (v w : Viewer) (p q : Problem) : Prop where
  isEditor : v.IsEditorOf p ↔ w.IsEditorOf q
  seePrivateSolution :
    Capability.seePrivateSolution ∈ v.capabilities ↔ Capability.seePrivateSolution ∈ w.capabilities
  editAll : Capability.editAll ∈ v.capabilities ↔ Capability.editAll ∈ w.capabilities
  editOwn : Capability.editOwn ∈ v.capabilities ↔ Capability.editOwn ∈ w.capabilities
  editPublic : Capability.editPublic ∈ v.capabilities ↔ Capability.editPublic ∈ w.capabilities
  isPublic : Capability.editPublic ∈ v.capabilities → p.isPublic = q.isPublic

namespace ReadsLike

variable {v w : Viewer} {p q : Problem} {e f : Editorial}

theorem canEdit_iff (h : v.ReadsLike w p q) : v.canEdit p = true ↔ w.canEdit q = true := by
  have hpublic : Capability.editPublic ∈ v.capabilities ∧ p.isPublic = true ↔
      Capability.editPublic ∈ w.capabilities ∧ q.isPublic = true := by
    rw [← h.editPublic]
    exact and_congr_right fun hc => by rw [h.isPublic hc]
  rw [Viewer.canEdit_iff, Viewer.canEdit_iff, isEditor_iff, isEditor_iff, h.isEditor, h.editAll,
    h.editOwn, hpublic]

theorem readsUnpublished_iff (h : v.ReadsLike w p q) :
    v.ReadsUnpublished p ↔ w.ReadsUnpublished q := by
  rw [ReadsUnpublished, ReadsUnpublished, h.seePrivateSolution, h.isEditor, h.canEdit_iff]

theorem canRead_eq (h : v.ReadsLike w e.problem f.problem) (hpublic : e.isPublic = f.isPublic)
    (hdate : e.publishOn = f.publishOn) (now : Instant) : v.canRead e now = w.canRead f now := by
  rw [Bool.eq_iff_iff, canRead_iff_readsUnpublished_or, canRead_iff_readsUnpublished_or,
    h.readsUnpublished_iff, hpublic, hdate]

end ReadsLike

end Viewer

/-- **Editorials open at their date.**  A viewer reads an editorial with the right to see
unpublished ones, as an author or a curator of the problem, with the right to edit the
problem, or once the editorial is public and its date has come.  So it stays open, and
before its date it is open to the first three kinds of viewers only.  Its own authors and
curators do not matter, nor does it matter who sees the problem. -/
theorem editorials_open_at_their_date :
    (∀ (v : Viewer) (e : Editorial) (now : Instant), v.canRead e now = true ↔
      Capability.seePrivateSolution ∈ v.capabilities ∨
        (∃ u, v.profile? = some u ∧ (u.id ∈ e.problem.authors ∨ u.id ∈ e.problem.curators)) ∨
        v.canEdit e.problem = true ∨ e.isPublic = true ∧ e.publishOn ≤ now) ∧
    (∀ (v : Viewer) (e : Editorial), e.isPublic = true → v.canRead e e.publishOn = true) ∧
    (∀ (v : Viewer) (e : Editorial) (now later : Instant), now ≤ later →
      v.canRead e now = true → v.canRead e later = true) ∧
    (∀ (v : Viewer) (e : Editorial) (now : Instant), now < e.publishOn →
      (v.canRead e now = true ↔ v.ReadsUnpublished e.problem)) ∧
    (∀ (v : Viewer) (e : Editorial) (authors curators : List ProfileId) (now : Instant),
      v.canRead { e with authors, curators } now = v.canRead e now) ∧
    (∀ (v w : Viewer) (e f : Editorial), v.ReadsLike w e.problem f.problem →
      e.isPublic = f.isPublic → e.publishOn = f.publishOn →
        ∀ now : Instant, v.canRead e now = w.canRead f now) := by
  refine ⟨?_, ?_, ?_, ?_, ?_, ?_⟩
  · intro v e now
    rw [Viewer.canRead_iff_readsUnpublished_or, Viewer.ReadsUnpublished, or_assoc, or_assoc]
    rfl
  · intro v e hpublic
    exact Viewer.canRead_iff_readsUnpublished_or.mpr (.inr ⟨hpublic, e.publishOn.le_refl⟩)
  · intro v e now later h
    exact Viewer.canRead_mono h
  · intro v e now h
    exact Viewer.canRead_iff_of_lt h
  · intro v e authors curators now
    rfl
  · intro v w e f h hpublic hdate now
    exact h.canRead_eq hpublic hdate now

/-- A problem that everybody sees. -/
def announcedProblem : Problem where
  id := 1
  code := "announced"
  name := "Announced"
  points := .zero
  isPublic := true
  isOrganizationPrivate := false
  authors := Roster.addAll ∅ [7]
  curators := ∅
  testers := ∅
  organizations := ∅
  bannedUsers := ∅
  code_length := by decide
  code_chars := by decide
  points_score := Problem.isScore_zero

/-- The same problem before it was announced. -/
def unannouncedProblem : Problem := { announcedProblem with isPublic := false }

/-- A user without any rights reads the editorials of both problems alike, although only
one of the problems shows: not before their date, also where the user is their author, and
from then on for ever. -/
theorem editorials_open_at_their_date_unannounced :
    let reader := Viewer.authenticated { id := 9 }
    let date : Instant := ⟨1000, 0, by decide⟩
    let before : Instant := ⟨999, 999999999, by decide⟩
    let announced : Editorial := ⟨announcedProblem, true, date, [], []⟩
    let unannounced : Editorial := ⟨unannouncedProblem, true, date, [9], [9]⟩
    reader.canSee announcedProblem = true ∧ reader.canSee unannouncedProblem = false ∧
      (∀ now, reader.canRead announced now = reader.canRead unannounced now) ∧
      ¬reader.canRead unannounced before = true ∧
      ∀ now, date ≤ now → reader.canRead unannounced now = true := by
  intro reader date before announced unannounced
  obtain ⟨-, hopen, hmono, hbefore, -, hlike⟩ := editorials_open_at_their_date
  have hreads : reader.ReadsLike reader announcedProblem unannouncedProblem :=
    ⟨Iff.rfl, Iff.rfl, Iff.rfl, Iff.rfl, Iff.rfl, by decide⟩
  have hstranger : ¬reader.ReadsUnpublished unannouncedProblem := by
    rintro (hsee | ⟨u, hu, heditor⟩ | hedit)
    · exact absurd hsee (by decide)
    · obtain rfl := Option.some.inj hu
      exact absurd heditor (by decide)
    · exact absurd hedit (by decide)
  refine ⟨by decide, by decide, hlike reader reader announced unannounced hreads rfl rfl, ?_, ?_⟩
  · rw [hbefore reader unannounced before (by decide)]
    exact hstranger
  · intro now hnow
    exact hmono reader unannounced date now hnow (hopen reader unannounced rfl)

end JudgePolicy
