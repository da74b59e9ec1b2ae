/-
Reading the problems out of the tables.

A problem row *describes* a problem together with the rows that the relations
have for it.  Loading turns every row, in ascending order of the codes, into the
problem it describes:

* `loadProblems_eq_ok_iff` — loading succeeds with a list of problems exactly if
  the sorted rows describe these problems one by one;
* `Describes.mem_related` — a problem has the people and organizations that the
  relations hold for its row;
* `mapM_eq_error_iff` — a list of computations fails as the first of them that fails;
* `Keyed.byCode_eq_of_perm` — with unique codes, rows have one sorted order, so
  they can be picked before or after they are sorted (`Keyed.byCode_filter`).

Design notes: `Keyed` is what the tables promise about themselves.  The relations
promise nothing: their rows may repeat and may point at problems that are not
there.
-/
import JudgePolicy.Database.Tables
import JudgePolicy.Proofs.Problem.Building
import Mathlib.Data.List.Forall2
import Mathlib.Data.List.Nodup
namespace JudgePolicy

/-- A list of computations gives a list of results exactly if it does so item by
item. -/
theorem mapM_eq_ok_iff {ε α β : Type} {f : α → Except ε β} {l : List α} {m : List β} :
    l.mapM f = .ok m ↔ List.Forall₂ (fun a b => f a = .ok b) l m := by
  induction l generalizing m with
  | nil =>
    rw [List.mapM_nil, List.forall₂_nil_left_iff]
    exact ⟨fun h => (Except.ok.inj h).symm, fun h => h ▸ rfl⟩
  | cons a rest ih =>
    rw [List.mapM_cons, List.forall₂_cons_left_iff]
    constructor
    · -- The whole result comes from a head and a rest that succeed.
      intro h
      cases ha : f a with
      | error e =>
        rw [ha] at h
        cases h
      | ok b =>
        cases hrest : rest.mapM f with
        | error e =>
          rw [ha, hrest] at h
          cases h
        | ok bs =>
          rw [ha, hrest] at h
          obtain rfl := Except.ok.inj h
          exact ⟨b, bs, rfl, ih.mp hrest, rfl⟩
    · rintro ⟨b, bs, ha, hrest, rfl⟩
      rw [ha, ih.mpr hrest]
      rfl

/-- A list of computations fails exactly as the first of them that fails. -/
theorem mapM_eq_error_iff {ε α β : Type} {f : α → Except ε β} {l : List α} {e : ε} :
    l.mapM f = .error e ↔ ∃ before a after, l = before ++ a :: after ∧
      (∀ x ∈ before, ∃ b, f x = .ok b) ∧ f a = .error e := by
  induction l with
  | nil =>
    refine iff_of_false nofun ?_
    rintro ⟨before, a, after, hl, -⟩
    exact List.append_ne_nil_of_right_ne_nil before (List.cons_ne_nil a after) hl.symm
  | cons x rest ih =>
    rw [List.mapM_cons]
    constructor
    · intro h
      cases hx : f x with
      | error e' =>
        -- The head fails, and nothing stands before it.
        rw [hx] at h
        obtain rfl := Except.error.inj h
        exact ⟨[], x, rest, rfl, nofun, hx⟩
      | ok b =>
        cases hrest : rest.mapM f with
        | ok bs =>
          rw [hx, hrest] at h
          cases h
        | error e' =>
          rw [hx, hrest] at h
          obtain rfl := Except.error.inj h
          obtain ⟨before, a, after, rfl, hbefore, ha⟩ := ih.mp hrest
          exact ⟨x :: before, a, after, rfl, List.forall_mem_cons.mpr ⟨⟨b, hx⟩, hbefore⟩, ha⟩
    · rintro ⟨before, a, after, hl, hbefore, ha⟩
      cases before with
      | nil =>
        obtain ⟨rfl, rfl⟩ := List.cons.inj hl
        rw [ha]
        rfl
      | cons y before =>
        obtain ⟨rfl, rfl⟩ := List.cons.inj hl
        obtain ⟨⟨b, hb⟩, hbefore⟩ := List.forall_mem_cons.mp hbefore
        rw [hb, ih.mpr ⟨before, a, after, rfl, hbefore, ha⟩]
        rfl

/-- A list of computations succeeds exactly if each of them does. -/
theorem exists_mapM_eq_ok_iff {ε α β : Type} {f : α → Except ε β} {l : List α} :
    (∃ m, l.mapM f = .ok m) ↔ ∀ a ∈ l, ∃ b, f a = .ok b := by
  constructor
  · rintro ⟨m, hm⟩
    have hall := mapM_eq_ok_iff.mp hm
    clear hm
    induction hall with
    | nil => exact nofun
    | cons hhead _ ih => exact List.forall_mem_cons.mpr ⟨⟨_, hhead⟩, ih⟩
  · intro hall
    cases hl : l.mapM f with
    | ok m => exact ⟨m, rfl⟩
    | error e =>
      obtain ⟨before, a, after, rfl, -, ha⟩ := mapM_eq_error_iff.mp hl
      obtain ⟨b, hb⟩ := hall a (by simp)
      rw [ha] at hb
      cases hb

namespace Problem

/-- Whom a relation connects with the problem. -/
def related (p : Problem) : Relation → List Int32
  | .authors => p.authors.ids
  | .curators => p.curators.ids
  | .testers => p.testers.ids
  | .organizations => p.organizations.toList
  | .bannedUsers => p.bannedUsers.toList

theorem nodup_related (p : Problem) (r : Relation) : (p.related r).Nodup := by
  cases r with
  | authors => exact p.authors.nodup
  | curators => exact p.curators.nodup
  | testers => exact p.testers.nodup
  | organizations => exact p.organizations.nodup_toList
  | bannedUsers => exact p.bannedUsers.nodup_toList

end Problem

namespace Tables

/-- The problems' identifiers are unique, and so are their codes. -/
structure Keyed (t : Tables) : Prop where
  ids : (t.problems.map (·.id)).Nodup
  codes : (t.problems.map (·.code)).Nodup

/-- The problem that a row stands for, with what the relations hold for it. -/
def Describes (t : Tables) (row : ProblemRow) (p : Problem) : Prop :=
  p.BuiltFrom (t.draft row)

theorem loadProblems_eq_ok_iff {t : Tables} {ps : List Problem} :
    t.loadProblems = .ok ps ↔ List.Forall₂ t.Describes (byCode t.problems) ps := by
  have hrow : t.Describes = fun row p => (t.draft row).build = .ok p := by
    funext row p
    exact propext Problem.Draft.build_eq_ok_iff.symm
  rw [loadProblems, mapM_eq_ok_iff, hrow]

namespace Describes

variable {t : Tables} {row : ProblemRow} {p q : Problem}

/-- A row describes one problem at most. -/
theorem eq (hp : t.Describes row p) (hq : t.Describes row q) : p = q := by
  have hbuild := Problem.Draft.build_eq_ok_iff.mpr hp
  rw [Problem.Draft.build_eq_ok_iff.mpr hq] at hbuild
  exact (Except.ok.inj hbuild).symm

/-- The people and organizations of the problem are those that the relations hold. -/
theorem mem_related (h : t.Describes row p) (r : Relation) {m : Int32} :
    m ∈ p.related r ↔ m ∈ t.members r row.id := by
  cases r with
  | authors => rw [Problem.related, h.authors, Roster.mem_ids]; simp [draft]
  | curators => rw [Problem.related, h.curators, Roster.mem_ids]; simp [draft]
  | testers => rw [Problem.related, h.testers, Roster.mem_ids]; simp [draft]
  | organizations => rw [Problem.related, h.organizations, SortedSet.mem_toList]; simp [draft]
  | bannedUsers => rw [Problem.related, h.bannedUsers, SortedSet.mem_toList]; simp [draft]

end Describes

/-! ### Rows in the order of their codes -/

theorem perm_byCode (rows : List ProblemRow) : (byCode rows).Perm rows :=
  List.mergeSort_perm rows _

theorem mem_byCode {rows : List ProblemRow} {row : ProblemRow} :
    row ∈ byCode rows ↔ row ∈ rows :=
  (perm_byCode rows).mem_iff

theorem pairwise_byCode (rows : List ProblemRow) :
    (byCode rows).Pairwise fun a b => (compare a.code b.code).isLE = true := by
  -- The sort asks for "not greater"; the laws of comparison speak of "at most".
  have hle : ∀ o : Ordering, (o != .gt) = o.isLE := by decide
  rw [byCode]
  simp only [hle]
  refine List.pairwise_mergeSort ?_ ?_ rows
  · intro a b c hab hbc
    exact Std.TransCmp.isLE_trans hab hbc
  · intro a b
    rw [Bool.or_eq_true, ← Std.OrientedCmp.isGE_iff_isLE (a := a.code)]
    cases compare a.code b.code <;> simp

namespace Keyed

variable {t : Tables}

theorem eq_of_code_eq (h : t.Keyed) {a b : ProblemRow} (ha : a ∈ t.problems)
    (hb : b ∈ t.problems) (hcode : a.code = b.code) : a = b :=
  List.inj_on_of_nodup_map h.codes ha hb hcode

theorem eq_of_id_eq (h : t.Keyed) {a b : ProblemRow} (ha : a ∈ t.problems)
    (hb : b ∈ t.problems) (hid : a.id = b.id) : a = b :=
  List.inj_on_of_nodup_map h.ids ha hb hid

/-- Rows in ascending order of their codes are in the only such order. -/
theorem byCode_eq_of_perm (h : t.Keyed) {rows sorted : List ProblemRow}
    (hrows : rows ⊆ t.problems) (hperm : sorted.Perm rows)
    (hsorted : sorted.Pairwise fun a b => (compare a.code b.code).isLE = true) :
    byCode rows = sorted := by
  refine List.Perm.eq_of_pairwise ?_ (pairwise_byCode rows) hsorted
    ((perm_byCode rows).trans hperm.symm)
  -- Two rows that may stand in either order have the same code, so they are one row.
  intro a b ha hb hab hba
  have ha' : a ∈ t.problems := hrows (mem_byCode.mp ha)
  have hb' : b ∈ t.problems := hrows (hperm.mem_iff.mp hb)
  exact h.eq_of_code_eq ha' hb'
    (Std.LawfulEqOrd.eq_of_compare (Std.OrientedCmp.isLE_antisymm hab hba))

/-- Picking rows and then sorting them is the same as sorting first. -/
theorem byCode_filter (h : t.Keyed) (picks : ProblemRow → Bool) :
    byCode (t.problems.filter picks) = (byCode t.problems).filter picks := by
  have hsorted := (pairwise_byCode t.problems).filter picks
  exact h.byCode_eq_of_perm (List.filter_subset_self _) ((perm_byCode _).filter picks) hsorted

/-- With unique codes, no two of the sorted rows have the same one. -/
theorem pairwise_lt_byCode (h : t.Keyed) :
    (byCode t.problems).Pairwise fun a b => a.code < b.code := by
  have hdiffer : (byCode t.problems).Pairwise fun a b => a.code ≠ b.code :=
    List.pairwise_map.mp (((perm_byCode t.problems).map _).nodup_iff.mpr h.codes)
  refine ((pairwise_byCode t.problems).and hdiffer).imp ?_
  rintro a b ⟨hle, hne⟩
  have hlt : compare a.code b.code = .lt := by
    cases hcmp : compare a.code b.code with
    | lt => rfl
    | eq => exact absurd (Std.LawfulEqOrd.eq_of_compare hcmp) hne
    | gt =>
      rw [hcmp] at hle
      cases hle
  exact compareOfLessAndEq_eq_lt.mp hlt

/-- Problems are loaded in strictly ascending order of their codes. -/
theorem pairwise_of_loaded (h : t.Keyed) {ps : List Problem} (loaded : t.loadProblems = .ok ps) :
    ps.Pairwise fun p q => p.code < q.code := by
  have hrows := loadProblems_eq_ok_iff.mp loaded
  have hcodes : (byCode t.problems).map (·.code) = ps.map (·.code) := by
    rw [← List.forall₂_eq_eq_eq, List.forall₂_map_left_iff, List.forall₂_map_right_iff]
    exact hrows.imp fun row p hdesc => hdesc.code.symm
  have hlt : ((byCode t.problems).map (·.code)).Pairwise (· < ·) :=
    List.pairwise_map.mpr h.pairwise_lt_byCode
  rw [hcodes] at hlt
  exact List.pairwise_map.mp hlt

end Keyed

end Tables

end JudgePolicy
