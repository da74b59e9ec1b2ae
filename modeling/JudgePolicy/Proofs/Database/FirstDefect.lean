/-
What keeps the problems from being loaded.

Either all rows become problems or none do.  A bad row has one defect, that of its code
if the code is bad and that of its points otherwise, and loading reports the bad row with
the smallest code:

* `build_draft_eq_error_iff` — the defect that a row is refused for, in terms of its code
  and its points;
* `loadProblems_eq_error_iff` — loading reports a defect exactly if it is the one of the
  first bad row;
* `loading_names_the_first_bad_row` — when problems are loaded, what is reported
  otherwise, and that neither the order of the rows nor the relations matter.

Design notes: rows are compared by their codes and never by their places in the table, so
that the order in which the rows are stored does not come into the statements.
-/
import JudgePolicy.Database.Connection
import JudgePolicy.Proofs.Database.Loading
import JudgePolicy.Proofs.Problem.Construction
namespace JudgePolicy

namespace ProblemRow

/-- The row has a code that a problem may have. -/
structure HasGoodCode (row : ProblemRow) : Prop where
  length : 1 ≤ row.code.length ∧ row.code.length ≤ 20
  letters : ∀ c ∈ row.code.toList, Problem.IsCodeLetter c

/-- The row has a code and points that a problem may have. -/
structure IsSound (row : ProblemRow) : Prop where
  code : row.HasGoodCode
  amount : row.points.IsAmount

/-- The code has neither too few bytes nor too many. -/
def HasCodeBytes (row : ProblemRow) : Prop :=
  1 ≤ row.code.utf8ByteSize ∧ row.code.utf8ByteSize ≤ 20

/-- The defect that a row is refused for. -/
inductive RefusedFor (row : ProblemRow) : Problem.Defect → Prop where
  | codeLength (bytes : ¬row.HasCodeBytes) : RefusedFor row (.codeLength row.code)
  | codeChars (bytes : row.HasCodeBytes)
      (letters : ∃ c ∈ row.code.toList, ¬Problem.IsCodeLetter c) :
      RefusedFor row (.codeChars row.code)
  | points (code : row.HasGoodCode) (amount : ¬row.points.IsAmount) :
      RefusedFor row (.points row.code row.points)

/-- No other bad row has a code that is smaller. -/
def IsFirstBadOf (row : ProblemRow) (rows : List ProblemRow) : Prop :=
  ∀ other ∈ rows, ¬other.IsSound → other = row ∨ row.code < other.code

/-- A code out of the right characters is as long in bytes as it is in characters. -/
theorem hasGoodCode_iff {row : ProblemRow} :
    row.HasGoodCode ↔
      row.HasCodeBytes ∧ ∀ c ∈ row.code.toList, Problem.IsCodeLetter c := by
  constructor
  · rintro ⟨hlength, hletters⟩
    rw [← Problem.utf8ByteSize_eq_length hletters] at hlength
    exact ⟨hlength, hletters⟩
  · rintro ⟨hbytes, hletters⟩
    rw [HasCodeBytes, Problem.utf8ByteSize_eq_length hletters] at hbytes
    exact ⟨hbytes, hletters⟩

/-- A bad code is reported, whatever the points are. -/
theorem RefusedFor.hasGoodCode_iff {row : ProblemRow} {defect : Problem.Defect}
    (h : row.RefusedFor defect) : row.HasGoodCode ↔ defect = .points row.code row.points := by
  cases h with
  | codeLength hbytes =>
    exact iff_of_false (fun hgood => hbytes (ProblemRow.hasGoodCode_iff.mp hgood).1) nofun
  | codeChars hbytes hletters =>
    obtain ⟨c, hc, hletter⟩ := hletters
    exact iff_of_false (fun hgood => hletter (hgood.letters c hc)) nofun
  | points hgood hamount => exact iff_of_true hgood rfl

end ProblemRow

namespace Tables

variable {t : Tables} {row : ProblemRow} {defect : Problem.Defect}

theorem exists_build_draft_iff :
    (∃ p, (t.draft row).build = .ok p) ↔ row.IsSound := by
  rw [Problem.Draft.exists_build_iff]
  exact ⟨fun ⟨hlength, hletters, hamount⟩ => ⟨⟨hlength, hletters⟩, hamount⟩,
    fun h => ⟨h.code.length, h.code.letters, h.amount⟩⟩

/-- A row is refused for the first of its defects. -/
theorem build_draft_eq_error_iff :
    (t.draft row).build = .error defect ↔ row.RefusedFor defect := by
  obtain ⟨hlength, hchars, hscore⟩ := (t.draft row).build_eq_error_iff
  rw [Problem.hasCodeLength_iff] at hlength hchars hscore
  rw [Problem.hasCodeChars_iff] at hchars hscore
  rw [Problem.isScore_iff] at hscore
  constructor
  · intro h
    -- The first check that fails gives the defect, and no row passes all of them.
    by_cases hbytes : row.HasCodeBytes
    case neg =>
      rw [hlength.mpr hbytes] at h
      obtain rfl := Except.error.inj h
      exact .codeLength hbytes
    by_cases hletters : ∀ c ∈ row.code.toList, Problem.IsCodeLetter c
    case neg =>
      rw [hchars.mpr ⟨hbytes, hletters⟩] at h
      obtain rfl := Except.error.inj h
      refine .codeChars hbytes ?_
      simpa only [Classical.not_forall, exists_prop] using hletters
    have hgood : row.HasGoodCode := ProblemRow.hasGoodCode_iff.mpr ⟨hbytes, hletters⟩
    by_cases hamount : row.points.IsAmount
    case neg =>
      rw [hscore.mpr ⟨hbytes, hletters, hamount⟩] at h
      obtain rfl := Except.error.inj h
      exact .points hgood hamount
    obtain ⟨p, hp⟩ := exists_build_draft_iff.mpr ⟨hgood, hamount⟩
    rw [hp] at h
    cases h
  · intro h
    cases h with
    | codeLength hbytes => exact hlength.mpr hbytes
    | codeChars hbytes hletters =>
      obtain ⟨c, hc, hletter⟩ := hletters
      exact hchars.mpr ⟨hbytes, fun hall => hletter (hall c hc)⟩
    | points hgood hamount =>
      obtain ⟨hbytes, hletters⟩ := ProblemRow.hasGoodCode_iff.mp hgood
      exact hscore.mpr ⟨hbytes, hletters, hamount⟩

theorem Keyed.of_perm (keyed : t.Keyed) {u : Tables} (perm : u.problems.Perm t.problems) :
    u.Keyed where
  ids := (perm.map (·.id)).nodup_iff.mpr keyed.ids
  codes := (perm.map (·.code)).nodup_iff.mpr keyed.codes

/-- Loading succeeds exactly if every row is good. -/
theorem exists_loadProblems_iff :
    (∃ ps, t.loadProblems = .ok ps) ↔ ∀ row ∈ t.problems, row.IsSound := by
  rw [loadProblems, exists_mapM_eq_ok_iff]
  simp only [exists_build_draft_iff, mem_byCode]

/-- Loading reports the defect of the first bad row. -/
theorem loadProblems_eq_error_iff (keyed : t.Keyed) :
    t.loadProblems = .error defect ↔
      ∃ row ∈ t.problems, row.IsFirstBadOf t.problems ∧ row.RefusedFor defect := by
  have hsorted := keyed.pairwise_lt_byCode
  rw [loadProblems, mapM_eq_error_iff]
  simp only [exists_build_draft_iff, build_draft_eq_error_iff]
  constructor
  · rintro ⟨before, row, after, hrows, hbefore, hrefused⟩
    have hmem : ∀ other, other ∈ before ++ row :: after ↔ other ∈ t.problems := by
      intro other
      rw [← hrows, mem_byCode]
    rw [hrows, List.pairwise_append, List.pairwise_cons] at hsorted
    refine ⟨row, (hmem row).mp (by simp), ?_, hrefused⟩
    intro other hother hbad
    -- A bad row does not stand before the one at which loading stops.
    rcases List.mem_append.mp ((hmem other).mpr hother) with hin | hin
    · exact absurd (hbefore other hin) hbad
    · rcases List.mem_cons.mp hin with heq | hin
      · exact .inl heq
      · exact .inr (hsorted.2.1.1 other hin)
  · rintro ⟨row, hrow, hfirst, hrefused⟩
    obtain ⟨before, after, hrows⟩ := List.append_of_mem (mem_byCode.mpr hrow)
    refine ⟨before, row, after, hrows, ?_, hrefused⟩
    intro other hother
    have hmem : other ∈ t.problems := by
      rw [← mem_byCode, hrows]
      exact List.mem_append_left _ hother
    rw [hrows, List.pairwise_append] at hsorted
    have hlt : other.code < row.code := hsorted.2.2 other hother row List.mem_cons_self
    by_contra hbad
    rcases hfirst other hmem hbad with rfl | hgt
    · exact String.lt_irrefl _ hlt
    · exact String.lt_asymm hlt hgt

end Tables

section Loading

open Database

variable {c : Connection} {t : Tables}

theorem Database.Connection.loadProblems_of_connected (connected : c.tables = some t) :
    c.loadProblems = t.loadProblems.mapError Failure.malformed := by
  rw [Connection.loadProblems, Connection.query, connected]
  rfl

theorem Tables.mapError_loadProblems_eq_error_iff (keyed : t.Keyed) {failure : Failure} :
    t.loadProblems.mapError Failure.malformed = .error failure ↔
      ∃ row ∈ t.problems, row.IsFirstBadOf t.problems ∧
        ∃ defect, row.RefusedFor defect ∧ failure = .malformed defect := by
  rw [mapError_eq_error_iff]
  simp only [loadProblems_eq_error_iff keyed]
  constructor
  · rintro ⟨defect, ⟨row, hrow, hfirst, hrefused⟩, rfl⟩
    exact ⟨row, hrow, hfirst, defect, hrefused, rfl⟩
  · rintro ⟨row, hrow, hfirst, defect, hrefused, rfl⟩
    exact ⟨defect, ⟨row, hrow, hfirst, hrefused⟩, rfl⟩

/-- **Loading rejects as a whole.**  The problems are loaded exactly if each row has a code
of one to twenty characters out of `a-z` and `0-9` and points that are finite and not below
zero; then there is one for each row, in ascending order of the codes.  If not, no problem
is loaded, and the failure is that of the bad row with the smallest code, which is about its
points only if its code is good.  Neither the order in which the rows are stored nor
anything in the relations has a part in that. -/
theorem loading_names_the_first_bad_row (connected : c.tables = some t) (keyed : t.Keyed) :
    ((∃ ps, c.loadProblems = .ok ps) ↔ ∀ row ∈ t.problems, row.IsSound) ∧
    (∀ ps, c.loadProblems = .ok ps →
      (∃ rows, rows.Perm t.problems ∧ List.Forall₂ t.Describes rows ps) ∧
        ps.Pairwise fun p q => p.code < q.code) ∧
    (∀ failure, c.loadProblems = .error failure ↔
      ∃ row ∈ t.problems, row.IsFirstBadOf t.problems ∧
        ∃ defect, row.RefusedFor defect ∧ failure = .malformed defect) ∧
    (∀ (row : ProblemRow) (defect : Problem.Defect), row.RefusedFor defect →
      (row.HasGoodCode ↔ defect = .points row.code row.points)) ∧
    ∀ (d : Connection) (u : Tables), d.tables = some u → u.problems.Perm t.problems →
      ((∃ ps, d.loadProblems = .ok ps) ↔ ∃ ps, c.loadProblems = .ok ps) ∧
        ∀ failure, d.loadProblems = .error failure ↔ c.loadProblems = .error failure := by
  have hload : c.loadProblems = t.loadProblems.mapError Failure.malformed :=
    Connection.loadProblems_of_connected connected
  refine ⟨?ok, ?loaded, ?failed, fun row defect h => h.hasGoodCode_iff, ?alike⟩
  case ok =>
    rw [hload]
    simp only [Problem.mapError_malformed_eq_ok_iff, Tables.exists_loadProblems_iff]
  case loaded =>
    intro ps hps
    rw [hload, Problem.mapError_malformed_eq_ok_iff] at hps
    exact ⟨⟨_, Tables.perm_byCode _, Tables.loadProblems_eq_ok_iff.mp hps⟩,
      keyed.pairwise_of_loaded hps⟩
  case failed =>
    intro failure
    rw [hload, Tables.mapError_loadProblems_eq_error_iff keyed]
  case alike =>
    intro d u hd hperm
    have hdload : d.loadProblems = u.loadProblems.mapError Failure.malformed :=
      Connection.loadProblems_of_connected hd
    have hrows : ∀ row, row ∈ u.problems ↔ row ∈ t.problems := fun row => hperm.mem_iff
    constructor
    · rw [hload, hdload]
      simp only [Problem.mapError_malformed_eq_ok_iff, Tables.exists_loadProblems_iff, hrows]
    · intro failure
      rw [hload, hdload, Tables.mapError_loadProblems_eq_error_iff keyed,
        Tables.mapError_loadProblems_eq_error_iff (keyed.of_perm hperm)]
      simp only [ProblemRow.IsFirstBadOf, hrows]

/-- Three rows against the order of their codes: the last one is good, and of the bad ones
the one with the smaller code is bad in both ways. -/
def mixedRows : List ProblemRow := [
  { id := 1, code := "zeta", name := "", points := .infinity false, isPublic := true,
    isOrganizationPrivate := false },
  { id := 2, code := "Beta", name := "", points := .infinity true, isPublic := true,
    isOrganizationPrivate := false },
  { id := 3, code := "alpha", name := "", points := .zero, isPublic := true,
    isOrganizationPrivate := false }]

/-- It stays the one that is reported when the rows are stored the other way round and the
relations have members for it and for a problem that is not there. -/
theorem loading_names_the_first_bad_row_mixed :
    let bare : Connection := ⟨some { problems := mixedRows }⟩
    let crowded : Connection := ⟨some {
      problems := mixedRows.reverse, authors := [⟨2, 7⟩, ⟨9, 7⟩], bannedUsers := [⟨2, 7⟩] }⟩
    bare.loadProblems = .error (.malformed (.codeChars "Beta")) ∧
      crowded.loadProblems = .error (.malformed (.codeChars "Beta")) := by
  intro bare crowded
  obtain ⟨-, -, hfailed, -, halike⟩ :=
    loading_names_the_first_bad_row (c := bare) (t := { problems := mixedRows }) rfl
      ⟨by decide, by decide⟩
  have hbare : bare.loadProblems = .error (.malformed (.codeChars "Beta")) := by
    refine (hfailed _).mpr ⟨mixedRows[1], by decide, ?_, _, .codeChars ?_ ?_, rfl⟩
    · -- The good row is not asked, and the other bad row has a larger code.
      intro other hother hbad
      simp only [mixedRows, List.mem_cons, List.not_mem_nil, or_false] at hother
      rcases hother with rfl | rfl | rfl
      · exact .inr (by decide)
      · exact .inl rfl
      · exact absurd ⟨⟨by decide, Problem.hasCodeChars_iff.mp (by decide)⟩, by decide, nofun⟩ hbad
    · exact Problem.hasCodeLength_iff.mp (by decide)
    · exact ⟨'B', by decide, mt Problem.isCodeChar_iff.mpr (by decide)⟩
  exact ⟨hbare, ((halike crowded _ rfl (List.reverse_perm _)).2 _).mpr hbare⟩

end Loading

end JudgePolicy
