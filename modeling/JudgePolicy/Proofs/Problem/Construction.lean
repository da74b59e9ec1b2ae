/-
Problems, from the statements about them to the problem that is built.

A run of statements about a draft is brought down to what it leaves behind, and the
checks of a draft to what they say about its code and its points:

* `applyAll_setLast`, `applyAll_added` — what is set is as it was set last, and what is
  added has added up;
* `applyAll_congr` — only the order among the statements on one topic matters, so
  statements on different topics commute;
* `isCodeChar_iff`, `hasCodeLength_iff_length`, `isScore_iff` — the checks, in terms of
  characters, lengths and signs;
* `problems_are_built_as_stated` — which drafts are built, which defect the others are
  refused for, and what the statements have made of the problem.

Design notes: a code is measured in bytes, and a code that is good otherwise has one
byte for each character.  So both measures accept the same codes, and the one in bytes
decides which defect is reported.
-/
import JudgePolicy.Failure
import JudgePolicy.Proofs.Problem.Building
namespace JudgePolicy

/-- In a list without repeats the newcomers are those that are not known. -/
theorem Roster.newcomers_of_nodup {known ids : List ProfileId} (h : ids.Nodup) :
    newcomers known ids = ids.filter (· ∉ known) := by
  induction ids generalizing known with
  | nil => rfl
  | cons id rest ih =>
    obtain ⟨hid, hrest⟩ := List.nodup_cons.mp h
    rw [newcomers]
    by_cases hknown : id ∈ known
    · rw [if_pos hknown, ih hrest, List.filter_cons_of_neg (by simpa using hknown)]
    · -- `id` is known from here on, which changes nothing, since it does not come again.
      have hsame : rest.filter (· ∉ known ++ [id]) = rest.filter (· ∉ known) := by
        refine List.filter_congr fun x hx => decide_eq_decide.mpr ?_
        have hne : x ≠ id := fun heq => hid (heq ▸ hx)
        rw [List.mem_append, List.mem_singleton, or_iff_left hne]
      rw [if_neg hknown, ih hrest, hsame, List.filter_cons_of_pos (by simpa using hknown)]

/-- A finite number that is not below zero; a zero may have a sign. -/
def Binary64.IsAmount : Binary64 → Prop
  | .nan => False
  | .number negative ordinal _ => ordinal < infinityOrdinal ∧ (negative = true → ordinal = 0)

namespace Problem

/-! ### The checks -/

/-- One of `a-z` and `0-9`. -/
def IsCodeLetter (c : Char) : Prop := ('a' ≤ c ∧ c ≤ 'z') ∨ ('0' ≤ c ∧ c ≤ '9')

theorem isCodeChar_iff {c : Char} : isCodeChar c = true ↔ IsCodeLetter c := by
  simp only [isCodeChar, IsCodeLetter, Char.le_def, UInt32.le_iff_toNat_le, Bool.or_eq_true,
    Bool.and_eq_true, decide_eq_true_eq]
  exact Iff.rfl

theorem hasCodeChars_iff {code : String} :
    hasCodeChars code = true ↔ ∀ c ∈ code.toList, IsCodeLetter c := by
  simp only [hasCodeChars, List.all_eq_true, isCodeChar_iff]

theorem IsCodeLetter.utf8Size {c : Char} (h : IsCodeLetter c) : c.utf8Size = 1 := by
  rw [Char.utf8Size_eq_one_iff]
  rcases h with ⟨-, h⟩ | ⟨-, h⟩
  · exact UInt32.le_trans h (by decide)
  · exact UInt32.le_trans h (by decide)

/-- A code out of these characters has as many bytes as characters. -/
theorem utf8ByteSize_eq_length {code : String} (h : ∀ c ∈ code.toList, IsCodeLetter c) :
    code.utf8ByteSize = code.length := by
  rw [← String.ofList_toList (s := code), String.length_ofList]
  generalize code.toList = l at h
  induction l with
  | nil => rfl
  | cons c rest ih =>
    have hc : c.utf8Size = 1 := (h c List.mem_cons_self).utf8Size
    have hrest := ih fun x hx => h x (List.mem_cons_of_mem c hx)
    rw [String.ofList_cons, String.utf8ByteSize_append, String.utf8ByteSize_singleton, hc, hrest,
      List.length_cons, Nat.add_comm]

theorem hasCodeLength_iff {code : String} :
    hasCodeLength code = true ↔ 1 ≤ code.utf8ByteSize ∧ code.utf8ByteSize ≤ 20 := by
  rw [hasCodeLength, Bool.and_eq_true, decide_eq_true_iff, decide_eq_true_iff, maxCodeLength]
  exact Iff.rfl

theorem hasCodeLength_iff_length {code : String} (h : ∀ c ∈ code.toList, IsCodeLetter c) :
    hasCodeLength code = true ↔ 1 ≤ code.length ∧ code.length ≤ 20 := by
  rw [hasCodeLength_iff, utf8ByteSize_eq_length h]

theorem isScore_iff {points : Binary64} : isScore points = true ↔ points.IsAmount := by
  cases points with
  | nan => exact iff_of_false (by decide) fun h => h
  | number negative ordinal h =>
    rw [isScore, Bool.and_eq_true]
    refine and_congr decide_eq_true_iff ?_
    rw [Binary64.isNegative, Binary64.less]
    cases negative with
    | false => simp [Binary64.rank, Binary64.zero, Binary64.ofOrdinal]
    | true => simp [Binary64.rank, Binary64.zero, Binary64.ofOrdinal]

/-! ### What statements say -/

namespace Step

/-- What a statement is about. -/
inductive Topic where
  | name
  | isPublic
  | isOrganizationPrivate
  | authors
  | curators
  | testers
  | organizations
  | bannedUsers
  deriving DecidableEq

def topic : Step → Topic
  | .name _ => .name
  | .isPublic _ => .isPublic
  | .isOrganizationPrivate _ => .isOrganizationPrivate
  | .authors _ => .authors
  | .curators _ => .curators
  | .testers _ => .testers
  | .organizations _ => .organizations
  | .bannedUsers _ => .bannedUsers

def name? : Step → Option String
  | .name text => some text
  | _ => none

def isPublic? : Step → Option Bool
  | .isPublic flag => some flag
  | _ => none

def isOrganizationPrivate? : Step → Option Bool
  | .isOrganizationPrivate flag => some flag
  | _ => none

def organizationIds : Step → List OrganizationId
  | .organizations ids => ids
  | _ => []

def bannedIds : Step → List ProfileId
  | .bannedUsers ids => ids
  | _ => []

end Step

namespace Draft

variable {d e : Draft} {s : Step} {steps others : List Step} {k : Step.Topic}

/-! ### Runs of statements -/

/-- What every statement sets or leaves alone is as it was set last. -/
theorem applyAll_setLast {α : Type} (value : Draft → α) (sets : Step → Option α)
    (step : ∀ d s, value (d.apply s) = (sets s).getD (value d)) (d : Draft)
    (steps : List Step) :
    value (d.applyAll steps) = (steps.filterMap sets).getLast?.getD (value d) := by
  induction steps generalizing d with
  | nil => rfl
  | cons s rest ih =>
    have hcons : d.applyAll (s :: rest) = (d.apply s).applyAll rest := rfl
    rw [hcons, ih, step]
    cases hs : sets s with
    | none => rw [List.filterMap_cons_none hs, Option.getD_none]
    | some a =>
      rw [List.filterMap_cons_some hs, List.getLast?_cons, Option.getD_some, Option.getD_some]

/-- Where every statement adds to a set, the set has gained what they add. -/
theorem applyAll_added (set : Draft → SortedSet Int32) (adds : Step → List Int32)
    (step : ∀ d s, set (d.apply s) = (set d).insertAll (adds s)) {d : Draft}
    {steps : List Step} {x : Int32} :
    x ∈ set (d.applyAll steps) ↔ x ∈ set d ∨ ∃ s ∈ steps, x ∈ adds s := by
  induction steps generalizing d with
  | nil => simp [applyAll]
  | cons s rest ih =>
    have hcons : d.applyAll (s :: rest) = (d.apply s).applyAll rest := rfl
    rw [hcons, ih, step, SortedSet.mem_insertAll, or_assoc]
    simp only [List.mem_cons, exists_eq_or_imp]

theorem id_apply : (d.apply s).id = d.id := by
  cases s <;> rfl

/-- What no statement touches stays as it is. -/
theorem applyAll_kept {α : Type} (value : Draft → α)
    (step : ∀ d s, value (d.apply s) = value d) (d : Draft) (steps : List Step) :
    value (d.applyAll steps) = value d := by
  induction steps generalizing d with
  | nil => rfl
  | cons s rest ih => exact (ih (d.apply s)).trans (step d s)

/-! ### Topics -/

/-- The drafts agree on a topic. -/
def AgreeOn (d e : Draft) : Step.Topic → Prop
  | .name => d.name = e.name
  | .isPublic => d.isPublic = e.isPublic
  | .isOrganizationPrivate => d.isOrganizationPrivate = e.isOrganizationPrivate
  | .authors => d.authors = e.authors
  | .curators => d.curators = e.curators
  | .testers => d.testers = e.testers
  | .organizations => d.organizations = e.organizations
  | .bannedUsers => d.bannedUsers = e.bannedUsers

/-- One statement made about both drafts leaves them in agreement. -/
theorem AgreeOn.apply (h : d.AgreeOn e k) (s : Step) : (d.apply s).AgreeOn (e.apply s) k := by
  cases s <;> cases k <;> simp_all [AgreeOn, Draft.apply]

/-- A statement on another topic does not matter. -/
theorem AgreeOn.apply_left (h : d.AgreeOn e k) (hs : s.topic ≠ k) : (d.apply s).AgreeOn e k := by
  cases s <;> cases k <;> first | exact h | exact absurd rfl hs

/-- Of a run of statements, those on a topic are enough for that topic. -/
theorem AgreeOn.applyAll (h : d.AgreeOn e k) (steps : List Step) :
    (d.applyAll steps).AgreeOn (e.applyAll (steps.filter (·.topic = k))) k := by
  induction steps generalizing d e with
  | nil => exact h
  | cons s rest ih =>
    by_cases hs : s.topic = k
    · rw [List.filter_cons_of_pos (by simpa using hs)]
      exact ih (h.apply s)
    · rw [List.filter_cons_of_neg (by simpa using hs)]
      exact ih (h.apply_left hs)

theorem eq_of_agreeOn (hid : d.id = e.id) (hcode : d.code = e.code) (hpoints : d.points = e.points)
    (h : ∀ k, d.AgreeOn e k) : d = e := by
  have hname : d.name = e.name := h .name
  have hpublic : d.isPublic = e.isPublic := h .isPublic
  have hprivate : d.isOrganizationPrivate = e.isOrganizationPrivate := h .isOrganizationPrivate
  have hauthors : d.authors = e.authors := h .authors
  have hcurators : d.curators = e.curators := h .curators
  have htesters : d.testers = e.testers := h .testers
  have horganizations : d.organizations = e.organizations := h .organizations
  have hbanned : d.bannedUsers = e.bannedUsers := h .bannedUsers
  cases d
  cases e
  simp_all

/-- Runs that make the same statements on each topic, in the same order, come to the same
draft, however they mix the topics. -/
theorem applyAll_congr (d : Draft)
    (h : ∀ k, steps.filter (·.topic = k) = others.filter (·.topic = k)) :
    d.applyAll steps = d.applyAll others := by
  have hkept : ∀ {α : Type} (value : Draft → α), (∀ d s, value (d.apply s) = value d) →
      value (d.applyAll steps) = value (d.applyAll others) := fun value step =>
    (applyAll_kept value step d steps).trans (applyAll_kept value step d others).symm
  refine eq_of_agreeOn (hkept Draft.id fun d s => id_apply) (hkept Draft.code fun d s => code_apply)
    (hkept Draft.points fun d s => points_apply) fun k => ?_
  have hrefl : d.AgreeOn d k := by cases k <;> rfl
  have hsteps := hrefl.applyAll steps
  have hothers := hrefl.applyAll others
  rw [h k] at hsteps
  cases k <;> exact Eq.trans hsteps hothers.symm

/-- Statements on different topics commute. -/
theorem apply_apply_comm {t : Step} (d : Draft) (h : s.topic ≠ t.topic) :
    (d.apply s).apply t = (d.apply t).apply s := by
  have hfilter : ∀ k, [s, t].filter (·.topic = k) = [t, s].filter (·.topic = k) := by
    intro k
    by_cases hs : s.topic = k
    · have ht : t.topic ≠ k := fun heq => h (hs.trans heq.symm)
      simp [hs, ht]
    · simp [List.filter_cons, hs]
  exact d.applyAll_congr hfilter

/-! ### Building -/

/-- Of the checks that fail, the first one decides what is reported. -/
theorem build_eq_error_iff (d : Draft) :
    (d.build = .error (.codeLength d.code) ↔ ¬hasCodeLength d.code = true) ∧
    (d.build = .error (.codeChars d.code) ↔
      hasCodeLength d.code = true ∧ ¬hasCodeChars d.code = true) ∧
    (d.build = .error (.points d.code d.points) ↔
      hasCodeLength d.code = true ∧ hasCodeChars d.code = true ∧ ¬isScore d.points = true) := by
  by_cases hlength : hasCodeLength d.code = true
  · by_cases hchars : hasCodeChars d.code = true
    · by_cases hscore : isScore d.points = true <;> simp [build, hlength, hchars, hscore]
    · simp [build, hlength, hchars]
  · simp [build, hlength]

/-- A code out of the right characters is as long in bytes as it is in characters, so that
a draft is built or not by either measure. -/
theorem exists_build_iff (d : Draft) :
    (∃ p, d.build = .ok p) ↔
      (1 ≤ d.code.length ∧ d.code.length ≤ 20) ∧ (∀ c ∈ d.code.toList, IsCodeLetter c) ∧
        d.points.IsAmount := by
  rw [exists_build_eq_ok_iff, hasCodeChars_iff, isScore_iff]
  exact and_congr_left fun h => hasCodeLength_iff_length h.1

end Draft

/-- The problem is as the statements say, where nothing was said before.  The name and
the flags are as set last, and an empty name gives way to the code; people are listed in
order of first mention; organizations and bans have added up. -/
structure StatedBy (p : Problem) (steps : List Step) : Prop where
  name : p.name = ((steps.filterMap Step.name?).getLast?.filter (· ≠ "")).getD p.code
  isPublic : p.isPublic = (steps.filterMap Step.isPublic?).getLast?.getD false
  isOrganizationPrivate :
    p.isOrganizationPrivate = (steps.filterMap Step.isOrganizationPrivate?).getLast?.getD false
  holders : ∀ post, (p.holders post).ids = (steps.flatMap (Step.named post)).eraseDups
  organizations : ∀ o, o ∈ p.organizations ↔ ∃ s ∈ steps, o ∈ s.organizationIds
  bannedUsers : ∀ id, id ∈ p.bannedUsers ↔ ∃ s ∈ steps, id ∈ s.bannedIds

section Stated

variable {id : ProblemId} {code : String} {points : Binary64} {steps : List Step} {p : Problem}

theorem statedBy_of_build_eq_ok
    (h : (Draft.applyAll { id, code, points } steps).build = .ok p) : p.StatedBy steps := by
  have hbuilt := Draft.builtFrom_of_build_eq_ok h
  constructor
  case name =>
    have hname := Draft.applyAll_setLast Draft.name Step.name?
      (fun d s => by cases s <;> rfl) { id, code, points } steps
    rw [hbuilt.name, hbuilt.code, hname]
    cases (steps.filterMap Step.name?).getLast? with
    | none => rfl
    | some text => by_cases htext : text = "" <;> simp [Option.filter, htext]
  case isPublic =>
    rw [hbuilt.isPublic]
    exact Draft.applyAll_setLast Draft.isPublic Step.isPublic? (fun d s => by cases s <;> rfl) _ _
  case isOrganizationPrivate =>
    rw [hbuilt.isOrganizationPrivate]
    exact Draft.applyAll_setLast Draft.isOrganizationPrivate Step.isOrganizationPrivate?
      (fun d s => by cases s <;> rfl) _ _
  case holders =>
    intro post
    have hnobody : (Draft.holders { id, code, points } post).ids = [] := by cases post <;> rfl
    rw [hbuilt.holders, Draft.holders_applyAll, Roster.ids_addAll, hnobody, List.nil_append,
      Roster.newcomers_eq_eraseDups, List.removeAll_nil]
  case organizations =>
    intro o
    rw [hbuilt.organizations, Draft.applyAll_added Draft.organizations
      Step.organizationIds fun d s => by cases s <;> rfl]
    exact or_iff_right (SortedSet.not_mem_empty o)
  case bannedUsers =>
    intro u
    rw [hbuilt.bannedUsers, Draft.applyAll_added Draft.bannedUsers
      Step.bannedIds fun d s => by cases s <;> rfl]
    exact or_iff_right (SortedSet.not_mem_empty u)

end Stated

/-- The authors, and then those curators that are not authors. -/
theorem ids_editors (p : Problem) :
    p.editors.ids = p.authors.ids ++ p.curators.ids.filter (· ∉ p.authors) := by
  rw [editors, Roster.ids_addAll, Roster.newcomers_of_nodup p.curators.nodup]
  rfl

theorem mapError_malformed_eq_error_iff {α : Type} {x : Except Defect α} {defect : Defect} :
    x.mapError Failure.malformed = .error (.malformed defect) ↔ x = .error defect := by
  rw [mapError_eq_error_iff]
  constructor
  · rintro ⟨other, hother, heq⟩
    obtain rfl := Failure.malformed.inj heq
    exact hother
  · intro h
    exact ⟨defect, h, rfl⟩

theorem mapError_malformed_eq_ok_iff {α : Type} {x : Except Defect α} {a : α} :
    x.mapError Failure.malformed = .ok a ↔ x = .ok a := by
  cases x with
  | ok b =>
    constructor
    · intro h
      obtain rfl := Except.ok.inj h
      rfl
    · intro h
      obtain rfl := Except.ok.inj h
      rfl
  | error defect => exact iff_of_false nofun nofun

end Problem

open Problem in
/-- **Problems are built as stated.**  A draft is built exactly if its code has one to
twenty characters out of `a-z` and `0-9` and its points are finite and not below zero; if
not, it is malformed, by the first defect of the length of the code in bytes, its
characters and the points.  The problem has the identifier, the code and the points that
were given, and is otherwise as the run of statements says; nobody is listed twice, and
its editors are the authors and then the other curators.  How statements on different
topics are mixed does not matter. -/
theorem problems_are_built_as_stated (id : ProblemId) (code : String) (points : Binary64)
    (steps : List Step) :
    let draft : Draft := Draft.applyAll { id, code, points } steps
    let built := draft.build.mapError Failure.malformed
    ((∃ p, built = .ok p) ↔
      (1 ≤ code.length ∧ code.length ≤ 20) ∧ (∀ c ∈ code.toList, IsCodeLetter c) ∧
        points.IsAmount) ∧
    (built = .error (.malformed (.codeLength code)) ↔
      code.utf8ByteSize = 0 ∨ 20 < code.utf8ByteSize) ∧
    (built = .error (.malformed (.codeChars code)) ↔
      (1 ≤ code.utf8ByteSize ∧ code.utf8ByteSize ≤ 20) ∧
        ∃ c ∈ code.toList, ¬IsCodeLetter c) ∧
    (built = .error (.malformed (.points code points)) ↔
      (1 ≤ code.utf8ByteSize ∧ code.utf8ByteSize ≤ 20) ∧
        (∀ c ∈ code.toList, IsCodeLetter c) ∧ ¬points.IsAmount) ∧
    (∀ p, built = .ok p →
      p.id = id ∧ p.code = code ∧ p.points = points ∧ p.StatedBy steps ∧
      (∀ post, (p.holders post).ids.Nodup) ∧
      p.editors.ids = p.authors.ids ++ p.curators.ids.filter (· ∉ p.authors) ∧
      p.editors.ids.Nodup ∧ ∀ user, user ∈ p.editors.ids ↔ p.isEditor user = true) ∧
    (∀ (d : Draft) (s t : Step), s.topic ≠ t.topic →
      (d.apply s).apply t = (d.apply t).apply s) ∧
    ∀ others : List Step,
      (∀ topic, others.filter (·.topic = topic) = steps.filter (·.topic = topic)) →
        Draft.applyAll { id, code, points } others = draft := by
  intro draft built
  have hcode : draft.code = code :=
    Draft.applyAll_kept Draft.code (fun d s => Draft.code_apply) _ steps
  have hpoints : draft.points = points :=
    Draft.applyAll_kept Draft.points (fun d s => Draft.points_apply) _ steps
  have hid : draft.id = id :=
    Draft.applyAll_kept Draft.id (fun d s => Draft.id_apply) _ steps
  obtain ⟨hlength, hchars, hscore⟩ := draft.build_eq_error_iff
  rw [hcode, ← mapError_malformed_eq_error_iff] at hlength hchars hscore
  rw [hpoints] at hscore
  refine ⟨?ok, ?length, ?chars, ?score, ?problem, fun d s t => d.apply_apply_comm,
    fun others => Draft.applyAll_congr _⟩
  case ok =>
    have hok : (∃ p, built = .ok p) ↔ ∃ p, draft.build = .ok p :=
      exists_congr fun p => mapError_malformed_eq_ok_iff
    rw [hok, Draft.exists_build_iff, hcode, hpoints]
  case length =>
    rw [hlength, hasCodeLength_iff]
    omega
  case chars =>
    rw [hchars, hasCodeLength_iff, hasCodeChars_iff]
    simp only [Classical.not_forall, exists_prop]
  case score => rw [hscore, hasCodeLength_iff, hasCodeChars_iff, isScore_iff]
  case problem =>
    intro p hp
    have hp : draft.build = .ok p := mapError_malformed_eq_ok_iff.mp hp
    have hbuilt := Draft.builtFrom_of_build_eq_ok hp
    exact ⟨hbuilt.id.trans hid, hbuilt.code.trans hcode, hbuilt.points.trans hpoints,
      statedBy_of_build_eq_ok hp, fun post => (p.holders post).nodup, p.ids_editors,
      p.editors.nodup, fun user => mem_editors⟩

/-- Statements that take a name back, change their mind about the public and repeat
themselves. -/
def revisedSteps : List Problem.Step :=
  [.name "Sum", .authors [3, 1, 3], .isPublic true, .curators [1, 4], .organizations [5],
    .authors [1, 2], .name "", .isPublic false, .organizations [6, 5]]

/-- The same statements topic by topic. -/
def sortedSteps : List Problem.Step :=
  [.name "Sum", .name "", .isPublic true, .isPublic false, .authors [3, 1, 3], .authors [1, 2],
    .curators [1, 4], .organizations [5], .organizations [6, 5]]

/-- A problem for a zero with a sign. -/
theorem problems_are_built_as_stated_revised :
    ∃ p : Problem,
      (Problem.Draft.applyAll { id := 1, code := "sum2", points := .ofOrdinal true 0 }
        revisedSteps).build.mapError Failure.malformed = .ok p ∧
      p.points = .ofOrdinal true 0 ∧ p.name = "sum2" ∧ p.isPublic = false ∧
      p.authors.ids = [3, 1, 2] ∧ p.editors.ids = [3, 1, 2, 4] ∧
      (∀ o, o ∈ p.organizations ↔ ∃ s ∈ revisedSteps, o ∈ s.organizationIds) ∧
      Problem.Draft.applyAll { id := 1, code := "sum2", points := .ofOrdinal true 0 } sortedSteps =
        Problem.Draft.applyAll { id := 1, code := "sum2", points := .ofOrdinal true 0 }
          revisedSteps := by
  obtain ⟨hok, -, -, -, hproblem, -, hmixed⟩ :=
    problems_are_built_as_stated 1 "sum2" (.ofOrdinal true 0) revisedSteps
  obtain ⟨p, hp⟩ := hok.mpr
    ⟨by decide, Problem.hasCodeChars_iff.mp (by decide), by decide, fun _ => rfl⟩
  obtain ⟨-, hcode, hpoints, hstated, -, heditors, -, -⟩ := hproblem p hp
  have hauthors : p.authors.ids = [3, 1, 2] := hstated.holders .author
  have hcurators : p.curators.ids = [1, 4] := hstated.holders .curator
  have hname : p.name = p.code := hstated.name
  refine ⟨p, hp, hpoints, hname.trans hcode, hstated.isPublic, hauthors, ?_,
    hstated.organizations, ?_⟩
  · rw [heditors, hauthors, hcurators]
    simp [← Roster.mem_ids, hauthors]
  · exact hmixed sortedSteps fun topic => by cases topic <;> rfl

end JudgePolicy
