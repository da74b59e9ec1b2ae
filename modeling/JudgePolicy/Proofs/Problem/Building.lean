/-
What a draft becomes when it is built.

* `build_eq_ok_iff` — building gives a problem exactly if the problem has every
  field of the draft;
* `exists_build_apply_of_build` — no statement about a draft keeps it from being
  built;
* `holders_applyAll`, `mem_holders_of_build_eq_ok` — after a run of statements, a post is
  held by those who held it before and by those who were named for it.

Nothing is said about the checks on the right-hand side: they are part of the
type of problems, so a problem with the draft's code and points has passed them.
-/
import JudgePolicy.Problem
namespace JudgePolicy

namespace Problem

/-- The problem has every field of the draft; one without a name has its code for
a name. -/
structure BuiltFrom (p : Problem) (d : Draft) : Prop where
  id : p.id = d.id
  code : p.code = d.code
  name : p.name = if d.name = "" then d.code else d.name
  points : p.points = d.points
  isPublic : p.isPublic = d.isPublic
  isOrganizationPrivate : p.isOrganizationPrivate = d.isOrganizationPrivate
  authors : p.authors = d.authors
  curators : p.curators = d.curators
  testers : p.testers = d.testers
  organizations : p.organizations = d.organizations
  bannedUsers : p.bannedUsers = d.bannedUsers

namespace Draft

theorem builtFrom_of_build_eq_ok {d : Draft} {p : Problem} (h : d.build = .ok p) :
    p.BuiltFrom d := by
  rw [build] at h
  split at h
  · split at h
    · split at h
      · obtain rfl := Except.ok.inj h
        exact ⟨rfl, rfl, rfl, rfl, rfl, rfl, rfl, rfl, rfl, rfl, rfl⟩
      · cases h
    · cases h
  · cases h

/-- Building gives a problem exactly if it has every field of the draft. -/
theorem build_eq_ok_iff {d : Draft} {p : Problem} : d.build = .ok p ↔ p.BuiltFrom d := by
  refine ⟨builtFrom_of_build_eq_ok, fun h => ?_⟩
  have hlength : hasCodeLength d.code = true := h.code ▸ p.code_length
  have hchars : hasCodeChars d.code = true := h.code ▸ p.code_chars
  have hscore : isScore d.points = true := h.points ▸ p.points_score
  obtain ⟨q, hq⟩ := exists_build_eq_ok_iff.mpr ⟨hlength, hchars, hscore⟩
  -- A problem is determined by its fields, and `q` has those of the draft too.
  have hbuilt := builtFrom_of_build_eq_ok hq
  have hqp : q = p := by
    cases p
    cases q
    obtain ⟨rfl, rfl, rfl, rfl, rfl, rfl, rfl, rfl, rfl, rfl, rfl⟩ := h
    obtain ⟨rfl, rfl, rfl, rfl, rfl, rfl, rfl, rfl, rfl, rfl, rfl⟩ := hbuilt
    rfl
  rw [hq, hqp]

/-! ### One more statement -/

section Apply

variable {d : Draft} {s : Step}

theorem code_apply : (d.apply s).code = d.code := by
  cases s <;> rfl

theorem points_apply : (d.apply s).points = d.points := by
  cases s <;> rfl

theorem exists_build_apply_of_build {p : Problem} (h : d.build = .ok p) (s : Step) :
    ∃ q, (d.apply s).build = .ok q := by
  -- The checks read the code and the points, and no statement is about these.
  rw [exists_build_eq_ok_iff, code_apply, points_apply]
  exact exists_build_eq_ok_iff.mp ⟨p, h⟩

/-! Nobody who was named is lost. -/

theorem mem_authors_apply {id : ProfileId} (h : id ∈ d.authors) : id ∈ (d.apply s).authors := by
  cases s with
  | authors ids => exact Roster.mem_addAll.mpr (.inl h)
  | _ => exact h

theorem mem_curators_apply {id : ProfileId} (h : id ∈ d.curators) :
    id ∈ (d.apply s).curators := by
  cases s with
  | curators ids => exact Roster.mem_addAll.mpr (.inl h)
  | _ => exact h

theorem mem_testers_apply {id : ProfileId} (h : id ∈ d.testers) : id ∈ (d.apply s).testers := by
  cases s with
  | testers ids => exact Roster.mem_addAll.mpr (.inl h)
  | _ => exact h

theorem mem_organizations_apply {o : OrganizationId} (h : o ∈ d.organizations) :
    o ∈ (d.apply s).organizations := by
  cases s with
  | organizations ids => exact SortedSet.mem_insertAll.mpr (.inl h)
  | _ => exact h

end Apply

end Draft

/-! ### Posts -/

/-- What people are named for, one after the other. -/
inductive Post where
  | author
  | curator
  | tester

/-- The people who hold a post. -/
def holders (p : Problem) : Post → Roster
  | .author => p.authors
  | .curator => p.curators
  | .tester => p.testers

/-- The people who are to hold a post. -/
def Draft.holders (d : Draft) : Post → Roster
  | .author => d.authors
  | .curator => d.curators
  | .tester => d.testers

/-- The people that a statement names for a post. -/
def Step.named : Post → Step → List ProfileId
  | .author, .authors ids => ids
  | .curator, .curators ids => ids
  | .tester, .testers ids => ids
  | _, _ => []

/-- Some statement names the person for the post. -/
def NamedFor (steps : List Step) (post : Post) (id : ProfileId) : Prop :=
  ∃ s ∈ steps, id ∈ s.named post

instance (steps : List Step) (post : Post) (id : ProfileId) :
    Decidable (NamedFor steps post id) :=
  inferInstanceAs (Decidable (∃ s ∈ steps, id ∈ s.named post))

theorem BuiltFrom.holders {p : Problem} {d : Draft} (h : p.BuiltFrom d) (post : Post) :
    p.holders post = d.holders post := by
  cases post with
  | author => exact h.authors
  | curator => exact h.curators
  | tester => exact h.testers

namespace Draft

theorem holders_apply (d : Draft) (s : Step) (post : Post) :
    (d.apply s).holders post = (d.holders post).addAll (s.named post) := by
  cases post <;> cases s <;> rfl

/-- After a run of statements, a post is held by those who held it before, and then
by those who were named for it. -/
theorem holders_applyAll (d : Draft) (steps : List Step) (post : Post) :
    (d.applyAll steps).holders post =
      (d.holders post).addAll (steps.flatMap (Step.named post)) := by
  induction steps generalizing d with
  | nil => rfl
  | cons s rest ih =>
    have hstep : d.applyAll (s :: rest) = (d.apply s).applyAll rest := rfl
    rw [hstep, ih, holders_apply, List.flatMap_cons, Roster.addAll_append]

/-- If nobody held a post before, then exactly those who were named for it hold it in
the problem that is built. -/
theorem mem_holders_of_build_eq_ok {d : Draft} {steps : List Step} {p : Problem}
    (h : (d.applyAll steps).build = .ok p) (post : Post) (hd : d.holders post = ∅)
    {id : ProfileId} : id ∈ p.holders post ↔ NamedFor steps post id := by
  rw [(builtFrom_of_build_eq_ok h).holders, holders_applyAll, hd, Roster.mem_addAll,
    List.mem_flatMap]
  exact or_iff_right (Roster.not_mem_empty id)

end Draft

end Problem

end JudgePolicy
