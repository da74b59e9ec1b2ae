/-
Which rows the condition of a filter selects.

A filter has two readings of the same data.  Its condition looks at a problem
row and searches the relations; the filter itself looks at the problem that was
loaded from the row.  They agree:

* `holds_condition` — on a row and the problem it describes, the condition and
  the filter give the same answer;
* `forall₂_select` — so selecting rows and selecting loaded problems match one by
  one;
* `select_condition_eq_select_loaded` — and every list of a viewer, asked of the
  tables, holds exactly the loaded problems the viewer is granted.

Design notes: the induction is on the filter, with the row and the problem fixed;
negations, conjunctions and disjunctions only need that their parts agree, so
all that the tables contribute sits in the four cases that search a relation.
-/
import JudgePolicy.Access
import JudgePolicy.Database.Condition
import JudgePolicy.Proofs.Database.Loading
namespace JudgePolicy

namespace Database

/-- A search of a relation finds the members of the row's problem that pass the
test. -/
theorem Expression.holds_related_iff {t : Tables} {row : ProblemRow} {r : Relation}
    {test : MemberTest} :
    (related r test).holds t row = true ↔ ∃ m ∈ t.members r row.id, test.holds m = true := by
  rw [holds, List.any_eq_true]
  constructor
  · rintro ⟨⟨problem, m⟩, hmem, hid⟩
    obtain ⟨hrel, htest⟩ := List.mem_filter.mp hmem
    obtain rfl := eq_of_beq hid
    exact ⟨m, Tables.mem_members.mpr hrel, htest⟩
  · rintro ⟨m, hmem, htest⟩
    refine ⟨⟨row.id, m⟩, List.mem_filter.mpr ⟨Tables.mem_members.mp hmem, htest⟩, ?_⟩
    exact beq_self_eq_true row.id

theorem Expression.holds_related_equals {t : Tables} {row : ProblemRow} {r : Relation}
    {id : Int32} :
    (related r (.equals id)).holds t row = decide (id ∈ t.members r row.id) := by
  rw [Bool.eq_iff_iff, holds_related_iff, decide_eq_true_iff]
  constructor
  · rintro ⟨m, hmem, htest⟩
    obtain rfl : m = id := eq_of_beq htest
    exact hmem
  · intro hmem
    exact ⟨id, hmem, beq_self_eq_true id⟩

end Database

namespace Filter

open Database

variable {t : Tables} {row : ProblemRow} {p : Problem}

mutual

/-- **A condition means its filter.**  On a row, the condition of a filter answers
as the filter does on the problem that the row describes. -/
theorem holds_condition (h : t.Describes row p) (f : Filter) :
    f.condition.expression.holds t row = f.selects p := by
  -- Constants and columns need no relation; each role is a search of its own relation.
  cases f with
  | always => rfl
  | never => rfl
  | isPublic => exact h.isPublic.symm
  | isOrganizationPrivate => exact h.isOrganizationPrivate.symm
  | authoredBy id =>
    rw [condition, Condition.holds_expression_plain, Expression.holds_related_equals, selects]
    exact decide_eq_decide.mpr (h.mem_related .authors).symm
  | curatedBy id =>
    rw [condition, Condition.holds_expression_plain, Expression.holds_related_equals, selects]
    exact decide_eq_decide.mpr (h.mem_related .curators).symm
  | testedBy id =>
    rw [condition, Condition.holds_expression_plain, Expression.holds_related_equals, selects]
    exact decide_eq_decide.mpr (h.mem_related .testers).symm
  | inOrganizations ids =>
    rw [condition, Condition.holds_expression_plain, selects, Bool.eq_iff_iff,
      Expression.holds_related_iff, SortedSet.meets_iff]
    constructor
    · rintro ⟨o, hmem, htest⟩
      exact ⟨o, of_decide_eq_true htest, (h.mem_related .organizations).mpr hmem⟩
    · rintro ⟨o, hids, hmem⟩
      exact ⟨o, (h.mem_related .organizations).mp hmem, decide_eq_true hids⟩
  -- The expression of a negation is the toggled expression of what it negates.
  | not part =>
    rw [condition, Condition.holds_expression_toggled, holds_condition h part, selects]
  | all parts =>
    rw [condition, Condition.holds_expression_plain, Expression.holds_conjunction,
      all_conditionParts h parts, selects]
  | any parts =>
    rw [condition, Condition.holds_expression_plain, Expression.holds_disjunction,
      any_conditionParts h parts, selects]

theorem all_conditionParts (h : t.Describes row p) (parts : List Filter) :
    (conditionParts parts).all (Expression.holds t row) = allSelect parts p := by
  cases parts with
  | nil => rfl
  | cons f rest =>
    rw [conditionParts, List.all_cons, holds_condition h f, all_conditionParts h rest, allSelect]

theorem any_conditionParts (h : t.Describes row p) (parts : List Filter) :
    (conditionParts parts).any (Expression.holds t row) = anySelects parts p := by
  cases parts with
  | nil => rfl
  | cons f rest =>
    rw [conditionParts, List.any_cons, holds_condition h f, any_conditionParts h rest, anySelects]

end

end Filter

namespace Tables

variable {t : Tables} {ps : List Problem}

/-! ### Rows and problems, one by one -/

theorem exists_describes_of_mem_row {rows : List ProblemRow}
    (h : List.Forall₂ t.Describes rows ps) {row : ProblemRow} (hrow : row ∈ rows) :
    ∃ p ∈ ps, t.Describes row p := by
  induction h with
  | nil => exact absurd hrow (by simp)
  | cons hhead _ ih =>
    rcases List.mem_cons.mp hrow with rfl | hrow
    · exact ⟨_, List.mem_cons_self, hhead⟩
    · obtain ⟨p, hp, hdesc⟩ := ih hrow
      exact ⟨p, List.mem_cons_of_mem _ hp, hdesc⟩

theorem exists_describes_of_mem_problem {rows : List ProblemRow}
    (h : List.Forall₂ t.Describes rows ps) {p : Problem} (hp : p ∈ ps) :
    ∃ row ∈ rows, t.Describes row p := by
  induction h with
  | nil => exact absurd hp (by simp)
  | cons hhead _ ih =>
    rcases List.mem_cons.mp hp with rfl | hp
    · exact ⟨_, List.mem_cons_self, hhead⟩
    · obtain ⟨row, hrow, hdesc⟩ := ih hp
      exact ⟨row, List.mem_cons_of_mem _ hrow, hdesc⟩

/-- The row's identifier and code; they name the problem that the row describes. -/
def key (row : ProblemRow) : ProblemId × String := (row.id, row.code)

theorem map_key_eq {rows : List ProblemRow} (h : List.Forall₂ t.Describes rows ps) :
    rows.map key = ps.map fun p => (p.id, p.code) := by
  induction h with
  | nil => rfl
  | cons hhead _ ih =>
    rw [List.map_cons, List.map_cons, ih, key, hhead.id, hhead.code]
    rfl

/-- The selected rows describe the selected problems, one by one. -/
theorem forall₂_select (keyed : t.Keyed) (loaded : t.loadProblems = .ok ps) (f : Filter) :
    List.Forall₂ t.Describes (t.select f.condition) (f.select ps) := by
  rw [select, keyed.byCode_filter, Filter.select]
  refine List.rel_filter ?_ (loadProblems_eq_ok_iff.mp loaded)
  intro row p hdesc
  exact Bool.eq_iff_iff.mp (f.holds_condition hdesc)

theorem mem_select_iff {row : ProblemRow} {p : Problem} (hrow : row ∈ t.problems)
    (hdesc : t.Describes row p) (f : Filter) :
    row ∈ t.select f.condition ↔ f.selects p = true := by
  rw [select, mem_byCode, List.mem_filter, f.holds_condition hdesc]
  exact ⟨fun h => h.2, fun h => ⟨hrow, h⟩⟩

/-- A row finds the problem it describes by its identifier. -/
theorem Keyed.eq_of_id_eq_of_describes (keyed : t.Keyed) (loaded : t.loadProblems = .ok ps)
    {row : ProblemRow} {p q : Problem} (hrow : row ∈ t.problems) (hp : t.Describes row p)
    (hq : q ∈ ps) (hid : q.id = row.id) : q = p := by
  obtain ⟨other, hother, hdesc⟩ :=
    exists_describes_of_mem_problem (loadProblems_eq_ok_iff.mp loaded) hq
  have hsame : other = row :=
    keyed.eq_of_id_eq (mem_byCode.mp hother) hrow (hdesc.id.symm.trans hid)
  rw [hsame] at hdesc
  exact hdesc.eq hp

end Tables

/-- **Conditions, filters and single decisions agree on loaded data.**  Each row
has one loaded problem, and a condition selects the row exactly if its filter
selects that problem; the rows selected for the lists of a viewer are those of
the loaded problems the viewer is granted one by one. -/
theorem select_condition_eq_select_loaded {t : Tables} {ps : List Problem} (keyed : t.Keyed)
    (loaded : t.loadProblems = .ok ps) :
    (∀ row ∈ t.problems, ∃ p ∈ ps, p.id = row.id ∧ (∀ q ∈ ps, q.id = row.id → q = p) ∧
      ∀ f : Filter, row ∈ t.select f.condition ↔ f.selects p = true) ∧
    (∀ f : Filter,
      (t.select f.condition).map Tables.key = (f.select ps).map fun p => (p.id, p.code)) ∧
    (∀ v : Viewer,
      (t.select v.visible.condition).map Tables.key =
        (ps.filter v.canSee).map (fun p => (p.id, p.code)) ∧
      (t.select v.editable.condition).map Tables.key =
        (ps.filter v.canEdit).map (fun p => (p.id, p.code)) ∧
      (t.select v.manageable.condition).map Tables.key =
        (ps.filter v.canManageSubmissions).map (fun p => (p.id, p.code))) := by
  have hrows := Tables.loadProblems_eq_ok_iff.mp loaded
  have hkeys : ∀ f : Filter,
      (t.select f.condition).map Tables.key = (f.select ps).map fun p => (p.id, p.code) :=
    fun f => Tables.map_key_eq (Tables.forall₂_select keyed loaded f)
  refine ⟨?_, hkeys, ?_⟩
  · intro row hrow
    obtain ⟨p, hp, hdesc⟩ :=
      Tables.exists_describes_of_mem_row hrows (Tables.mem_byCode.mpr hrow)
    exact ⟨p, hp, hdesc.id,
      fun q hq hid => keyed.eq_of_id_eq_of_describes loaded hrow hdesc hq hid,
      fun f => Tables.mem_select_iff hrow hdesc f⟩
  · intro v
    -- A viewer's filter accepts the problems that the rule grants on, one by one.
    have hrule : ∀ r : Rule, (t.select (v.filter r).condition).map Tables.key =
        (ps.filter (v.may r)).map fun p => (p.id, p.code) := by
      intro r
      have hselects : (v.filter r).selects = v.may r := funext (v.selects_filter r)
      rw [hkeys, Filter.select, hselects]
    exact ⟨hrule .visibility, hrule .edit, hrule .manageSubmissions⟩

/-- Two problems against the order of their codes; one author is listed twice, and
once for a problem that is not there. -/
def crossedTables : Tables where
  problems := [
    ⟨2, "b", "", .zero, false, true⟩,
    ⟨1, "a", "", .zero, true, false⟩]
  authors := [⟨1, 7⟩, ⟨2, 7⟩, ⟨1, 7⟩, ⟨9, 7⟩]
  organizations := [⟨2, 5⟩]

/-- The problems of `crossedTables`, as they are loaded. -/
def crossedProblems : List Problem := [
  { id := 1, code := "a", name := "a", points := .zero
    isPublic := true, isOrganizationPrivate := false
    authors := ⟨[7], by decide⟩, curators := ∅, testers := ∅
    organizations := ∅, bannedUsers := ∅
    code_length := by decide, code_chars := by decide, points_score := by decide },
  { id := 2, code := "b", name := "b", points := .zero
    isPublic := false, isOrganizationPrivate := true
    authors := ⟨[7], by decide⟩, curators := ∅, testers := ∅
    organizations := SortedSet.ofList [5], bannedUsers := ∅
    code_length := by decide, code_chars := by decide, points_score := by decide }]

theorem select_condition_eq_select_loaded_crossed :
    crossedTables.Keyed ∧ crossedTables.loadProblems = .ok crossedProblems ∧
    (crossedTables.select
      (Filter.all [.authoredBy 7, .not (.inOrganizations (SortedSet.ofList [5]))]).condition).map
        Tables.key = [(1, "a")] ∧
    (crossedTables.select Viewer.anonymous.visible.condition).map Tables.key = [(1, "a")] := by
  have keyed : crossedTables.Keyed := ⟨by decide, by decide⟩
  have sorted : Tables.byCode crossedTables.problems = crossedTables.problems.reverse :=
    keyed.byCode_eq_of_perm (List.Subset.refl _) (List.reverse_perm _) (by decide)
  have loaded : crossedTables.loadProblems = .ok crossedProblems := by
    rw [Tables.loadProblems, sorted]
    rfl
  obtain ⟨-, hfilter, hviewer⟩ := select_condition_eq_select_loaded keyed loaded
  refine ⟨keyed, loaded, ?_, ?_⟩
  · rw [hfilter]
    decide
  · rw [(hviewer .anonymous).1]
    decide

end JudgePolicy
