/-
Storing problems and loading them again.

Tables *hold* problems if there is one row for each problem and one for each of its
people and organizations, in whatever order and up to the signs of zeros.  The two
halves of a round trip meet there:

* `Tables.HoldsProblems.exists_loaded` — tables that hold problems with distinct
  identifiers load what matches them, row by row;
* `Tables.holdsProblems_foldl_store` — tables hold the problems that were stored in
  them one by one;
* `stored_problems_load_unchanged` — nothing that a decision reads is lost on the way.

Design notes: a relation does not say where the rows of one problem end, and need not
keep them together.  They are told apart by the identifier alone, which is why people
come back in any order, but no person can come back to another problem.
-/
import JudgePolicy.Database.Connection
import JudgePolicy.Proofs.Access.Noninterference
import JudgePolicy.Proofs.Database.Loading
import Mathlib.Data.List.Perm.Basic
namespace JudgePolicy

/-- Two lists that are related item by item have a common list of results if every
two related items have a common result. -/
theorem exists_forall₂_of_forall₂ {α β γ : Type} {R : α → β → Prop} {S : α → γ → Prop}
    {T : β → γ → Prop} {l : List α} {m : List β} (h : List.Forall₂ R l m)
    (hresult : ∀ a, ∀ b ∈ m, R a b → ∃ c, S a c ∧ T b c) :
    ∃ n, List.Forall₂ S l n ∧ List.Forall₂ T m n := by
  induction h with
  | nil => exact ⟨[], .nil, .nil⟩
  | cons hhead _ ih =>
    obtain ⟨c, hS, hT⟩ := hresult _ _ List.mem_cons_self hhead
    obtain ⟨n, hSs, hTs⟩ := ih fun a b hb => hresult a b (List.mem_cons_of_mem _ hb)
    exact ⟨c :: n, .cons hS hSs, .cons hT hTs⟩

namespace Problem

/-! ### What is stored of a problem -/

/-- The problem's own row. -/
def row (p : Problem) : ProblemRow where
  id := p.id
  code := p.code
  name := p.name
  points := p.points
  isPublic := p.isPublic
  isOrganizationPrivate := p.isOrganizationPrivate

/-- The rows that a relation has for the problem. -/
def memberships (r : Relation) (p : Problem) : List Membership := (p.related r).map (⟨p.id, ·⟩)

@[simp] theorem mem_memberships {r : Relation} {p : Problem} {id : ProblemId} {m : Int32} :
    ⟨id, m⟩ ∈ memberships r p ↔ p.id = id ∧ m ∈ p.related r := by
  rw [memberships, List.mem_map]
  constructor
  · rintro ⟨n, hn, heq⟩
    cases heq
    exact ⟨rfl, hn⟩
  · rintro ⟨rfl, hm⟩
    exact ⟨m, hm, rfl⟩

/-- Some draft gives the problem. -/
def Built (p : Problem) : Prop := ∃ d : Draft, d.build = .ok p

/-- Of all fields, building changes a missing name only, and the code that takes its
place is not empty. -/
theorem built_iff {p : Problem} : p.Built ↔ p.name ≠ "" := by
  constructor
  · rintro ⟨d, hd⟩ hname
    have hbuilt := Draft.build_eq_ok_iff.mp hd
    have hcode : p.code ≠ "" := by
      intro hempty
      have hlength := p.code_length
      rw [hempty] at hlength
      exact absurd hlength (by decide)
    rw [hbuilt.name] at hname
    split at hname
    · exact hcode (hbuilt.code.trans hname)
    · contradiction
  · intro hname
    refine ⟨⟨p.id, p.code, p.points, p.name, p.isPublic, p.isOrganizationPrivate, p.authors,
      p.curators, p.testers, p.organizations, p.bannedUsers⟩, Draft.build_eq_ok_iff.mpr ?_⟩
    exact ⟨rfl, rfl, (if_neg hname).symm, rfl, rfl, rfl, rfl, rfl, rfl, rfl, rfl⟩

/-! ### What a stored problem keeps -/

/-- The problems are equal but for the order of their people and the signs of zeros. -/
structure Matches (p q : Problem) : Prop where
  id : p.id = q.id
  code : p.code = q.code
  name : p.name = q.name
  points : p.points.equals q.points = true
  isPublic : p.isPublic = q.isPublic
  isOrganizationPrivate : p.isOrganizationPrivate = q.isOrganizationPrivate
  authors : p.authors.ids.Perm q.authors.ids
  curators : p.curators.ids.Perm q.curators.ids
  testers : p.testers.ids.Perm q.testers.ids
  organizations : p.organizations = q.organizations
  bannedUsers : p.bannedUsers = q.bannedUsers

/-- No decision tells the problems apart. -/
structure DecidedAlike (p q : Problem) : Prop where
  access : ∀ v : Viewer, v.accessTo p = v.accessTo q
  filters : ∀ f : Filter, f.selects p = f.selects q
  votes : ∀ (v : Viewer) (h : History) (now : Instant), v.votingOn p h now = v.votingOn q h now

namespace Matches

variable {p q : Problem}

theorem sameAudience (h : p.Matches q) : p.SameAudience q where
  isPublic := h.isPublic
  isOrganizationPrivate := h.isOrganizationPrivate
  authors _ := h.authors.mem_iff
  curators _ := h.curators.mem_iff
  testers _ := h.testers.mem_iff
  organizations := h.organizations

theorem decidedAlike (h : p.Matches q) : p.DecidedAlike q where
  access := h.sameAudience.accessTo_eq
  filters := h.sameAudience.selects_eq
  votes v record now := by
    cases v with
    | anonymous => rfl
    | authenticated u =>
      -- Of a problem, the right to vote reads the bans.
      rw [Viewer.votingOn, Viewer.votingOn, Voting.reasonFor, Voting.reasonFor, h.bannedUsers]

end Matches

end Problem

/-! ### Scores in a column -/

theorem Problem.isScore_withoutZeroSign (x : Binary64) : isScore x.withoutZeroSign = isScore x := by
  cases x with
  | nan => rfl
  | number negative k h =>
    rw [Binary64.withoutZeroSign]
    split
    · next hk =>
      subst hk
      cases negative <;> rfl
    · rfl

/-- A score is equal to every number of which a column keeps the same. -/
theorem Problem.equals_of_isScore {x y : Binary64} (hx : isScore x = true)
    (h : x.withoutZeroSign = y.withoutZeroSign) : x.equals y = true := by
  have hrank : x.rank = y.rank := by
    rw [← Binary64.rank_withoutZeroSign, h, Binary64.rank_withoutZeroSign]
  have hsome : x.rank.isSome = true := by
    rw [Option.isSome_iff_ne_none, Ne, Binary64.rank_eq_none_iff]
    rintro rfl
    cases hx
  rw [Binary64.equals_eq, hsome, hrank, Bool.true_and, beq_self_eq_true]

/-- The row with its points as a column of numbers keeps them. -/
def ProblemRow.stored (row : ProblemRow) : ProblemRow :=
  { row with points := row.points.withoutZeroSign }

theorem ProblemRow.stored_stored (row : ProblemRow) : row.stored.stored = row.stored := by
  show ProblemRow.mk _ _ _ row.points.withoutZeroSign.withoutZeroSign _ _ = _
  rw [Binary64.withoutZeroSign_withoutZeroSign]
  rfl

namespace Tables

/-- The tables have one row for each of the problems and one for each of their people
and organizations, and no other rows. -/
structure HoldsProblems (t : Tables) (ps : List Problem) : Prop where
  problems : (t.problems.map ProblemRow.stored).Perm (ps.map fun p => p.row.stored)
  relation : ∀ r, (t.relation r).Perm (ps.flatMap (Problem.memberships r))

namespace HoldsProblems

variable {t : Tables} {ps : List Problem}

theorem keyed (h : t.HoldsProblems ps) (ids : (ps.map (·.id)).Nodup)
    (codes : (ps.map (·.code)).Nodup) : t.Keyed := by
  have hid := h.problems.map (·.id)
  have hcode := h.problems.map (·.code)
  rw [List.map_map, List.map_map] at hid hcode
  exact ⟨hid.nodup_iff.mpr ids, hcode.nodup_iff.mpr codes⟩

/-- Of the rows of a relation, those with a problem's identifier are the problem's. -/
theorem mem_members_iff (h : t.HoldsProblems ps) (ids : (ps.map (·.id)).Nodup) {p : Problem}
    (hp : p ∈ ps) {r : Relation} {m : Int32} : m ∈ t.members r p.id ↔ m ∈ p.related r := by
  rw [mem_members, (h.relation r).mem_iff, List.mem_flatMap]
  constructor
  · rintro ⟨q, hq, hmem⟩
    obtain ⟨hid, hm⟩ := Problem.mem_memberships.mp hmem
    rwa [List.inj_on_of_nodup_map ids hq hp hid] at hm
  · intro hm
    exact ⟨p, hp, Problem.mem_memberships.mpr ⟨rfl, hm⟩⟩

/-- The row of a problem describes something, whatever the relations hold. -/
theorem exists_describes (t : Tables) {p : Problem} {row : ProblemRow}
    (hrow : row.stored = p.row.stored) : ∃ q, t.Describes row q := by
  have hcode : row.code = p.code := congrArg (·.code) hrow
  have hpoints : row.points.withoutZeroSign = p.points.withoutZeroSign := congrArg (·.points) hrow
  -- The checks on a draft read the code and the points, and those are good.
  have hlength : Problem.hasCodeLength row.code = true := hcode ▸ p.code_length
  have hchars : Problem.hasCodeChars row.code = true := hcode ▸ p.code_chars
  have hscore : Problem.isScore row.points = true := by
    rw [← Problem.isScore_withoutZeroSign, hpoints, Problem.isScore_withoutZeroSign]
    exact p.points_score
  obtain ⟨q, hq⟩ := Problem.Draft.exists_build_eq_ok_iff.mpr
    (show Problem.hasCodeLength (t.draft row).code = true ∧ _ from ⟨hlength, hchars, hscore⟩)
  exact ⟨q, Problem.Draft.build_eq_ok_iff.mp hq⟩

/-- What a row describes matches the problem that was stored in it. -/
theorem matches_of_describes (h : t.HoldsProblems ps) (ids : (ps.map (·.id)).Nodup)
    {p q : Problem} (hp : p ∈ ps) (built : p.Built) {row : ProblemRow}
    (hrow : row.stored = p.row.stored) (hq : t.Describes row q) : p.Matches q := by
  have hid : row.id = p.id := congrArg (·.id) hrow
  have hname : row.name = p.name := congrArg (·.name) hrow
  have hpoints : row.points.withoutZeroSign = p.points.withoutZeroSign := congrArg (·.points) hrow
  have hrelated : ∀ r m, m ∈ p.related r ↔ m ∈ q.related r := by
    intro r m
    rw [hq.mem_related, hid, h.mem_members_iff ids hp]
  have hperm : ∀ r, (p.related r).Perm (q.related r) := by
    intro r
    exact (List.perm_ext_iff_of_nodup (p.nodup_related r) (q.nodup_related r)).mpr (hrelated r)
  have hqname : q.name = p.name := by
    rw [hq.name]
    show (if row.name = "" then row.code else row.name) = p.name
    rw [hname, if_neg (Problem.built_iff.mp built)]
  have hqpoints : p.points.equals q.points = true := by
    rw [hq.points]
    exact Problem.equals_of_isScore p.points_score hpoints.symm
  exact {
    id := hid.symm.trans hq.id.symm
    code := (congrArg (·.code) hrow).symm.trans hq.code.symm
    name := hqname.symm
    points := hqpoints
    isPublic := (congrArg (·.isPublic) hrow).symm.trans hq.isPublic.symm
    isOrganizationPrivate :=
      (congrArg (·.isOrganizationPrivate) hrow).symm.trans hq.isOrganizationPrivate.symm
    authors := hperm .authors
    curators := hperm .curators
    testers := hperm .testers
    organizations := SortedSet.ext (hrelated .organizations)
    bannedUsers := SortedSet.ext (hrelated .bannedUsers) }

/-- Tables that hold problems load a match of each of them. -/
theorem exists_loaded (h : t.HoldsProblems ps) (ids : (ps.map (·.id)).Nodup)
    (built : ∀ p ∈ ps, p.Built) :
    ∃ originals loaded : List Problem, originals.Perm ps ∧ t.loadProblems = .ok loaded ∧
      List.Forall₂ Problem.Matches originals loaded := by
  -- The sorted rows are those of the problems in some order.
  have hperm : ((byCode t.problems).map ProblemRow.stored).Perm (ps.map fun p => p.row.stored) :=
    ((perm_byCode t.problems).map _).trans h.problems
  have hself : List.Forall₂ (fun x (p : Problem) => x = p.row.stored)
      (ps.map fun p => p.row.stored) ps := by
    rw [List.forall₂_map_left_iff]
    exact List.forall₂_same.mpr fun p _ => rfl
  obtain ⟨originals, horiginals, hps⟩ := List.perm_comp_forall₂ hperm hself
  rw [List.forall₂_map_left_iff] at horiginals
  -- Each of them describes a problem that matches.
  have hrow : ∀ row, ∀ p ∈ originals, row.stored = p.row.stored →
      ∃ q, t.Describes row q ∧ p.Matches q := by
    intro row p hp hstored
    have hmem : p ∈ ps := hps.mem_iff.mp hp
    obtain ⟨q, hq⟩ := exists_describes t hstored
    exact ⟨q, hq, h.matches_of_describes ids hmem (built p hmem) hstored hq⟩
  obtain ⟨loaded, hrows, hmatches⟩ := exists_forall₂_of_forall₂ horiginals hrow
  exact ⟨originals, loaded, hps, loadProblems_eq_ok_iff.mpr hrows, hmatches⟩

end HoldsProblems

/-! ### Storing problems one by one -/

/-- Adds a problem with all that it is related to. -/
def store (t : Tables) (p : Problem) : Tables :=
  t.addProblem p.row (SortedSet.ofList p.authors.ids) (SortedSet.ofList p.curators.ids)
    (SortedSet.ofList p.testers.ids) p.organizations p.bannedUsers

variable {t : Tables} {ps : List Problem}

theorem holdsProblems_empty : ({} : Tables).HoldsProblems [] where
  problems := .refl _
  relation r := by
    cases r <;> exact .refl _

theorem holdsProblems_store (h : t.HoldsProblems ps) (p : Problem) :
    (t.store p).HoldsProblems (ps ++ [p]) := by
  have hpeople : ∀ a : Roster,
      (rowsFor p.id (SortedSet.ofList a.ids)).Perm (a.ids.map (⟨p.id, ·⟩)) := by
    intro a
    have hids : (SortedSet.ofList a.ids).toList.Perm a.ids :=
      (List.perm_ext_iff_of_nodup (SortedSet.nodup_toList _) a.nodup).mpr fun m =>
        SortedSet.mem_ofList
    exact hids.map _
  constructor
  · show ((t.problems ++ [p.row.stored]).map ProblemRow.stored).Perm _
    rw [List.map_append, List.map_append, List.map_singleton, List.map_singleton,
      ProblemRow.stored_stored]
    exact h.problems.append_right [p.row.stored]
  · intro r
    rw [List.flatMap_append, List.flatMap_singleton]
    cases r with
    | authors => exact (h.relation .authors).append (hpeople p.authors)
    | curators => exact (h.relation .curators).append (hpeople p.curators)
    | testers => exact (h.relation .testers).append (hpeople p.testers)
    | organizations => exact (h.relation .organizations).append (.refl _)
    | bannedUsers => exact (h.relation .bannedUsers).append (.refl _)

/-- Tables hold the problems that were stored in them one by one. -/
theorem holdsProblems_foldl_store (h : t.HoldsProblems ps) (added : List Problem) :
    (added.foldl store t).HoldsProblems (ps ++ added) := by
  induction added generalizing t ps with
  | nil => rwa [List.append_nil]
  | cons p rest ih =>
    rw [List.foldl_cons, List.append_cons]
    exact ih (holdsProblems_store h p)

end Tables

/-- **Storing loses nothing that decisions read.**  From tables that hold built problems
with distinct identifiers and codes, exactly these problems are loaded, each once and in
ascending order of the codes, and no decision tells a loaded problem from the original. -/
theorem stored_problems_load_unchanged {c : Database.Connection} {t : Tables}
    {ps : List Problem} (connected : c.tables = some t) (built : ∀ p ∈ ps, p.Built)
    (ids : (ps.map (·.id)).Nodup) (codes : (ps.map (·.code)).Nodup)
    (holds : t.HoldsProblems ps) :
    ∃ originals loaded : List Problem, originals.Perm ps ∧ c.loadProblems = .ok loaded ∧
      loaded.Pairwise (fun p q => p.code < q.code) ∧
      List.Forall₂ Problem.Matches originals loaded ∧
      List.Forall₂ Problem.DecidedAlike originals loaded := by
  obtain ⟨originals, loaded, hperm, hloaded, hmatches⟩ := holds.exists_loaded ids built
  have hquery : c.loadProblems = .ok loaded := by
    rw [Database.Connection.loadProblems, Database.Connection.query, connected]
    show t.loadProblems.mapError Failure.malformed = .ok loaded
    rw [hloaded]
    rfl
  exact ⟨originals, loaded, hperm, hquery, (holds.keyed ids codes).pairwise_of_loaded hloaded,
    hmatches, hmatches.imp fun _ _ h => h.decidedAlike⟩

/-- `renamedProblem` by an identifier of its own, for zero points with a sign. -/
def signedProblem : Problem :=
  { renamedProblem with
    id := 2, name := "Signed", points := .ofOrdinal true 0, points_score := by decide }

/-- A database in which two problems were stored against the order of their codes. -/
def pairConnection : Database.Connection :=
  ⟨some ([sharedProblem, signedProblem].foldl Tables.store {})⟩

theorem stored_problems_load_unchanged_pair :
    ∃ originals loaded : List Problem, originals.Perm [sharedProblem, signedProblem] ∧
      pairConnection.loadProblems = .ok loaded ∧
      loaded.Pairwise (fun p q => p.code < q.code) ∧
      List.Forall₂ Problem.Matches originals loaded ∧
      List.Forall₂ Problem.DecidedAlike originals loaded := by
  have hbuilt : ∀ p ∈ [sharedProblem, signedProblem], p.Built := by
    simp only [Problem.built_iff]
    decide
  exact stored_problems_load_unchanged (c := pairConnection) rfl hbuilt (by decide) (by decide)
    (Tables.holdsProblems_foldl_store Tables.holdsProblems_empty _)

end JudgePolicy
