/-
The editors of an editorial, after any run of calls that name people for it.

* `editorIds_applyAll` — the authors as they were named, and then the curators that are
  not authors, each at the first mention;
* `nodup_editorIds_iff` — somebody is listed twice exactly if somebody was named twice as
  an author;
* `editors_as_named` — who is listed, in which order, and who is listed for an editorial
  for which nobody was named.

Design notes: the authors of a problem are listed once each from the start, while those
of an editorial are kept as they were named.  So a repeated author shows in the list, and
a repeated curator does not.
-/
import JudgePolicy.Proofs.Editorial.Publication
namespace JudgePolicy

namespace Editorial

/-- A call that names people for an editorial. -/
inductive Step where
  | authors (ids : List ProfileId)
  | curators (ids : List ProfileId)

namespace Step

/-- The people that a call names, for whatever. -/
def ids : Step → List ProfileId
  | authors ids | curators ids => ids

def authorIds : Step → List ProfileId
  | authors ids => ids
  | curators _ => []

def curatorIds : Step → List ProfileId
  | authors _ => []
  | curators ids => ids

theorem mem_ids_iff {s : Step} {id : ProfileId} :
    id ∈ s.ids ↔ id ∈ s.authorIds ∨ id ∈ s.curatorIds := by
  cases s <;> simp [ids, authorIds, curatorIds]

theorem ids_eq_nil_iff {s : Step} : s.ids = [] ↔ s.authorIds = [] ∧ s.curatorIds = [] := by
  cases s <;> simp [ids, authorIds, curatorIds]

end Step

def apply (e : Editorial) : Step → Editorial
  | .authors ids => e.addAuthors ids
  | .curators ids => e.addCurators ids

def applyAll (e : Editorial) (steps : List Step) : Editorial := steps.foldl apply e

/-- The people that were named as authors, one after the other. -/
def namedAuthors (steps : List Step) : List ProfileId := steps.flatMap Step.authorIds

/-- The people that were named as curators, one after the other. -/
def namedCurators (steps : List Step) : List ProfileId := steps.flatMap Step.curatorIds

/-! ### Runs of calls -/

theorem apply_eq (e : Editorial) (s : Step) :
    e.apply s = { e with
      authors := e.authors ++ s.authorIds, curators := e.curators ++ s.curatorIds } := by
  cases s <;> simp [apply, addAuthors, addCurators, Step.authorIds, Step.curatorIds]

/-- A run of calls adds the people at the end of the two lists, and does nothing else. -/
theorem applyAll_eq (e : Editorial) (steps : List Step) :
    e.applyAll steps = { e with
      authors := e.authors ++ namedAuthors steps
      curators := e.curators ++ namedCurators steps } := by
  induction steps generalizing e with
  | nil => simp [applyAll, namedAuthors, namedCurators]
  | cons s rest ih =>
    have hstep : e.applyAll (s :: rest) = (e.apply s).applyAll rest := rfl
    rw [hstep, ih, apply_eq]
    simp [namedAuthors, namedCurators]

theorem mem_named_iff {steps : List Step} {id : ProfileId} :
    id ∈ namedAuthors steps ∨ id ∈ namedCurators steps ↔ ∃ s ∈ steps, id ∈ s.ids := by
  simp only [namedAuthors, namedCurators, List.mem_flatMap, Step.mem_ids_iff, and_or_left,
    exists_or]

theorem named_eq_nil_iff {steps : List Step} :
    namedAuthors steps = [] ∧ namedCurators steps = [] ↔ ∀ s ∈ steps, s.ids = [] := by
  simp only [namedAuthors, namedCurators, List.flatMap_eq_nil_iff, Step.ids_eq_nil_iff,
    forall_and]

/-! ### The list of editors -/

section Editors

variable {problem : Problem} {isPublic : Bool} {publishOn : Instant} {steps : List Step}

theorem editorIds_applyAll_of_nobody (h : ∀ s ∈ steps, s.ids = []) :
    (applyAll { problem, isPublic, publishOn } steps).editorIds = problem.editors.ids := by
  obtain ⟨hauthors, hcurators⟩ := named_eq_nil_iff.mpr h
  rw [applyAll_eq, hauthors, hcurators]
  rfl

/-- The authors as they were named, and then the curators that are not authors. -/
theorem editorIds_applyAll (h : ¬∀ s ∈ steps, s.ids = []) :
    (applyAll { problem, isPublic, publishOn } steps).editorIds =
      namedAuthors steps ++ Roster.newcomers (namedAuthors steps) (namedCurators steps) := by
  rw [applyAll_eq, editorIds, List.nil_append, List.nil_append,
    if_neg fun hnil => h (named_eq_nil_iff.mp hnil)]

theorem mem_editorIds_iff (h : ¬∀ s ∈ steps, s.ids = []) {id : ProfileId} :
    id ∈ (applyAll { problem, isPublic, publishOn } steps).editorIds ↔
      ∃ s ∈ steps, id ∈ s.ids := by
  rw [editorIds_applyAll h, List.mem_append, Roster.mem_newcomers, ← mem_named_iff]
  constructor
  · exact Or.imp_right And.left
  · intro hnamed
    by_cases hid : id ∈ namedAuthors steps
    · exact .inl hid
    · exact .inr ⟨hnamed.resolve_left hid, hid⟩

/-- Somebody is listed twice exactly if somebody was named twice as an author. -/
theorem nodup_editorIds_iff :
    (applyAll { problem, isPublic, publishOn } steps).editorIds.Nodup ↔
      (namedAuthors steps).Nodup := by
  by_cases h : ∀ s ∈ steps, s.ids = []
  · rw [editorIds_applyAll_of_nobody h, (named_eq_nil_iff.mpr h).1]
    exact iff_of_true problem.editors.nodup List.nodup_nil
  rw [editorIds_applyAll h]
  refine ⟨fun h => (List.nodup_append.mp h).1, fun hauthors => ?_⟩
  -- A list without repeats is a roster, and nobody is added to a roster twice.
  have hroster := ((⟨namedAuthors steps, hauthors⟩ : Roster).addAll (namedCurators steps)).nodup
  rwa [Roster.ids_addAll] at hroster

end Editors

end Editorial

open Editorial in
/-- **Editors are listed as they were named.**  An editorial for which nobody was named
has the editors of its problem.  Otherwise exactly those are listed who were named: the
authors, one after the other as they were named, and then the curators that are not
authors, each at the first mention.  Read without repeats, the list holds both groups in
order of first mention.  Repeats there are exactly if somebody was named twice as an
author. -/
theorem editors_as_named (problem : Problem) (isPublic : Bool) (publishOn : Instant)
    (steps : List Editorial.Step) :
    let editors := (applyAll { problem, isPublic, publishOn } steps).editorIds
    ((∀ s ∈ steps, s.ids = []) → editors = problem.editors.ids) ∧
    ((¬∀ s ∈ steps, s.ids = []) →
      (∀ id, id ∈ editors ↔ ∃ s ∈ steps, id ∈ s.ids) ∧
      editors = namedAuthors steps ++
        ((namedCurators steps).removeAll (namedAuthors steps)).eraseDups ∧
      editors.eraseDups = (namedAuthors steps).eraseDups ++
        ((namedCurators steps).removeAll (namedAuthors steps)).eraseDups) ∧
    (editors.Nodup ↔ (namedAuthors steps).Nodup) := by
  intro editors
  refine ⟨editorIds_applyAll_of_nobody, fun h => ⟨fun id => mem_editorIds_iff h, ?_, ?_⟩,
    nodup_editorIds_iff⟩
  · rw [← Roster.newcomers_eq_eraseDups]
    exact editorIds_applyAll h
  · have heditors : editors = namedAuthors steps ++ _ := editorIds_applyAll h
    rw [heditors, List.eraseDups_append, ← Roster.newcomers_eq_eraseDups,
      ← Roster.newcomers_eq_eraseDups, Roster.newcomers_newcomers]

/-- Calls in which curators are named again, also as authors. -/
def repeatedCurators : List Editorial.Step := [.curators [6, 5, 6], .authors [9, 5], .curators [9]]

theorem editors_as_named_repeated_curators :
    let editors := (Editorial.applyAll
      { problem := announcedProblem, isPublic := true, publishOn := ⟨0, 0, by decide⟩ }
      repeatedCurators).editorIds
    editors = [9, 5, 6] ∧ editors.Nodup ∧
      ∀ id, id ∈ editors ↔ ∃ s ∈ repeatedCurators, id ∈ s.ids := by
  intro editors
  obtain ⟨-, hnamed, hnodup⟩ :=
    editors_as_named announcedProblem true ⟨0, 0, by decide⟩ repeatedCurators
  obtain ⟨hmem, horder, -⟩ := hnamed (by decide)
  exact ⟨horder.trans (by decide), hnodup.mpr (by decide), hmem⟩

/-- An author who is named twice is listed twice. -/
theorem editorIds_repeated_author :
    let editors := (Editorial.applyAll
      { problem := announcedProblem, isPublic := true, publishOn := ⟨0, 0, by decide⟩ }
      [.authors [5, 5]]).editorIds
    editors = [5, 5] ∧ ¬editors.Nodup := by
  decide

end JudgePolicy
