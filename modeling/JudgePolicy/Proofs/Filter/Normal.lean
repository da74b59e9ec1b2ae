/-
The normal form of filters, and the folding constructors that reach it.

A filter is *normal* if it is a constant, or if every filter that occurs in it
is *tight*: no constant, no negation of a negation, no empty set of
organizations, no conjunction or disjunction of fewer than two parts.

* `isReduced_iff`, `isNormal_iff` — the recursive test of `Filter/Folding.lean`
  finds exactly the filters all of whose occurring filters are tight;
* `isNormal_negation`, `isNormal_conjunction`, `isNormal_disjunction` — a folding
  constructor applied to normal filters gives a normal filter;
* `isNormal_residual`, `isNormal_folded` — so what rules leave is normal, and
  what rebuilding gives;
* `folded_of_isNormal` — and normal filters rebuild to themselves.

Design notes: the invariant that carries the inductions is `isReduced`, which
admits no constant at all; `isNormal` adds the two constants at the top only.
-/
import JudgePolicy.Filter.Folding
import JudgePolicy.Rule
namespace JudgePolicy

theorem SortedSet.isEmpty_eq_false_iff {α : Type} [Ord α] {s : SortedSet α} :
    s.isEmpty = false ↔ s ≠ ∅ := by
  obtain ⟨l, hl⟩ := s
  cases l with
  | nil => simp [isEmpty, EmptyCollection.emptyCollection]
  | cons a rest => simp [isEmpty, EmptyCollection.emptyCollection]

namespace Filter

/-! ### Normal filters, by what occurs in them -/

/-- `g` occurs in `f`: as `f` itself, or in one of its parts. -/
inductive Occurs (g : Filter) : Filter → Prop
  | self : Occurs g g
  | not {part : Filter} : Occurs g part → Occurs g (.not part)
  | all {part : Filter} {parts : List Filter} :
      part ∈ parts → Occurs g part → Occurs g (.all parts)
  | any {part : Filter} {parts : List Filter} :
      part ∈ parts → Occurs g part → Occurs g (.any parts)

/-- Nothing folds at the top of the filter, and it is no constant. -/
def Tight : Filter → Prop
  | always | never => False
  | isPublic | isOrganizationPrivate | authoredBy _ | curatedBy _ | testedBy _ => True
  | inOrganizations ids => ids ≠ ∅
  | not part => ∀ inner, part ≠ not inner
  | all parts | any parts => 2 ≤ parts.length

/-- A constant, or a filter in which only tight filters occur. -/
def Normal (f : Filter) : Prop :=
  f = always ∨ f = never ∨ ∀ g : Filter, g.Occurs f → g.Tight

theorem isAlways_iff {f : Filter} : f.isAlways = true ↔ f = always := by
  cases f <;> simp [isAlways]

theorem isNever_iff {f : Filter} : f.isNever = true ↔ f = never := by
  cases f <;> simp [isNever]

theorem isNot_eq_false_iff {f : Filter} : f.isNot = false ↔ ∀ inner, f ≠ not inner := by
  cases f <;> simp [isNot]

theorem areReduced_iff {parts : List Filter} :
    areReduced parts = true ↔ ∀ f ∈ parts, f.isReduced = true := by
  induction parts with
  | nil => simp [areReduced]
  | cons f rest ih => simp [areReduced, ih]

/-! What holds of everything that occurs in a filter holds of the filter itself
and of everything that occurs in its parts. -/

section Occurrences

variable {holds : Filter → Prop} {f part : Filter} {parts : List Filter}

theorem forall_occurs_of_leaf (leaf : ∀ g : Filter, g.Occurs f → g = f) :
    (∀ g : Filter, g.Occurs f → holds g) ↔ holds f := by
  constructor
  · intro h
    exact h f .self
  · intro h g hg
    rw [leaf g hg]
    exact h

theorem forall_occurs_not_iff :
    (∀ g : Filter, g.Occurs (not part) → holds g) ↔
      holds (not part) ∧ ∀ g : Filter, g.Occurs part → holds g := by
  constructor
  · intro h
    exact ⟨h _ .self, fun g hg => h g (.not hg)⟩
  · rintro ⟨hself, hpart⟩ g hg
    cases hg with
    | self => exact hself
    | not hg => exact hpart g hg

theorem forall_occurs_all_iff :
    (∀ g : Filter, g.Occurs (all parts) → holds g) ↔
      holds (all parts) ∧ ∀ part ∈ parts, ∀ g : Filter, g.Occurs part → holds g := by
  constructor
  · intro h
    exact ⟨h _ .self, fun part hmem g hg => h g (.all hmem hg)⟩
  · rintro ⟨hself, hparts⟩ g hg
    cases hg with
    | self => exact hself
    | all hmem hg => exact hparts _ hmem g hg

theorem forall_occurs_any_iff :
    (∀ g : Filter, g.Occurs (any parts) → holds g) ↔
      holds (any parts) ∧ ∀ part ∈ parts, ∀ g : Filter, g.Occurs part → holds g := by
  constructor
  · intro h
    exact ⟨h _ .self, fun part hmem g hg => h g (.any hmem hg)⟩
  · rintro ⟨hself, hparts⟩ g hg
    cases hg with
    | self => exact hself
    | any hmem hg => exact hparts _ hmem g hg

end Occurrences

mutual

/-- A filter is reduced exactly if only tight filters occur in it. -/
theorem isReduced_iff (f : Filter) :
    f.isReduced = true ↔ ∀ g : Filter, g.Occurs f → g.Tight := by
  cases f with
  | inOrganizations ids =>
    rw [forall_occurs_of_leaf (by rintro g ⟨⟩; rfl), isReduced, Tight, Bool.not_eq_true',
      SortedSet.isEmpty_eq_false_iff]
  | not part =>
    rw [forall_occurs_not_iff, ← isReduced_iff part, isReduced, Bool.and_eq_true,
      Bool.not_eq_true', isNot_eq_false_iff, Tight]
  | all parts =>
    rw [forall_occurs_all_iff, ← areReduced_iff_occurs parts, isReduced, Bool.and_eq_true,
      decide_eq_true_iff, Tight]
  | any parts =>
    rw [forall_occurs_any_iff, ← areReduced_iff_occurs parts, isReduced, Bool.and_eq_true,
      decide_eq_true_iff, Tight]
  -- Constants are never tight, and the other leaves always are.
  | _ =>
    rw [forall_occurs_of_leaf (by rintro g ⟨⟩; rfl)]
    simp [isReduced, Tight]

theorem areReduced_iff_occurs (parts : List Filter) :
    areReduced parts = true ↔
      ∀ part ∈ parts, ∀ g : Filter, g.Occurs part → g.Tight := by
  cases parts with
  | nil => simp [areReduced]
  | cons f rest =>
    rw [areReduced, Bool.and_eq_true, isReduced_iff f, areReduced_iff_occurs rest,
      List.forall_mem_cons]

end

/-- The test of normality finds exactly the normal filters. -/
theorem isNormal_iff {f : Filter} : f.isNormal = true ↔ f.Normal := by
  rw [isNormal, Bool.or_eq_true, Bool.or_eq_true, isAlways_iff, isNever_iff, isReduced_iff,
    Normal, or_assoc]

/-! ### Folding gives normal filters -/

theorem isNormal_of_isReduced {f : Filter} (h : f.isReduced = true) : f.isNormal = true := by
  rw [isNormal, h, Bool.or_true]

theorem isReduced_of_isNormal {f : Filter} (h : f.isNormal = true)
    (halways : f.isAlways = false) (hnever : f.isNever = false) : f.isReduced = true := by
  rw [isNormal, halways, hnever] at h
  exact h

theorem isAlways_of_isReduced {f : Filter} (h : f.isReduced = true) : f.isAlways = false := by
  cases f with
  | always => exact absurd h (by simp [isReduced])
  | _ => rfl

theorem isNever_of_isReduced {f : Filter} (h : f.isReduced = true) : f.isNever = false := by
  cases f with
  | never => exact absurd h (by simp [isReduced])
  | _ => rfl

theorem isNormal_constant (b : Bool) : (constant b).isNormal = true := by
  cases b <;> rfl

theorem isNormal_ofOrganizations (ids : SortedSet OrganizationId) :
    (ofOrganizations ids).isNormal = true := by
  rw [ofOrganizations]
  by_cases h : ids.isEmpty = true
  · rw [if_pos h]
    rfl
  · rw [if_neg h]
    refine isNormal_of_isReduced ?_
    rw [isReduced, Bool.not_eq_true', ← Bool.not_eq_true]
    exact h

theorem negation_of_isReduced {f : Filter} (h : f.isReduced = true) (hnot : f.isNot = false) :
    f.negation = not f := by
  cases f with
  | always | never => exact absurd h (by simp [isReduced])
  | not part => exact absurd hnot (by simp [isNot])
  | _ => rfl

theorem isNormal_negation {f : Filter} (h : f.isNormal = true) :
    f.negation.isNormal = true := by
  by_cases halways : f.isAlways = true
  · rw [isAlways_iff.mp halways]
    rfl
  by_cases hnever : f.isNever = true
  · rw [isNever_iff.mp hnever]
    rfl
  have hf : f.isReduced = true :=
    isReduced_of_isNormal h (eq_false_of_ne_true halways)
      (eq_false_of_ne_true hnever)
  by_cases hnot : f.isNot = true
  · -- Two negations cancel, and what is left was reduced already.
    cases f with
    | not part =>
      rw [isReduced, Bool.and_eq_true] at hf
      exact isNormal_of_isReduced hf.2
    | _ => exact absurd hnot (by simp [isNot])
  · have hnot' : f.isNot = false := eq_false_of_ne_true hnot
    rw [negation_of_isReduced hf hnot']
    refine isNormal_of_isReduced ?_
    rw [isReduced, hf, hnot']
    rfl

/-- What a joining constructor keeps is reduced: it has dropped one constant, and
the other one would have decided everything. -/
theorem areReduced_kept {parts : List Filter} {drops decides : Filter → Bool}
    (hnormal : ∀ f ∈ parts, f.isNormal = true)
    (hconstants : ∀ f : Filter, (f.isAlways || f.isNever) = (drops f || decides f))
    (hdecides : ¬parts.any decides = true) :
    areReduced (parts.filter (!drops ·)) = true := by
  rw [areReduced_iff]
  intro f hf
  obtain ⟨hmem, hdrops⟩ := List.mem_filter.mp hf
  have hdrops' : drops f = false := by simpa using hdrops
  have hdecides' : decides f = false := by
    refine eq_false_of_ne_true fun h => hdecides ?_
    exact List.any_eq_true.mpr ⟨f, hmem, h⟩
  -- Neither constant is left, and a normal filter is reduced or a constant.
  have hconstant := hconstants f
  rw [hdrops', hdecides', Bool.or_false, Bool.or_eq_false_iff] at hconstant
  exact isReduced_of_isNormal (hnormal f hmem) hconstant.1 hconstant.2

theorem two_le_length {parts : List Filter} (hnil : parts ≠ [])
    (hsingle : ∀ f, parts ≠ [f]) : 2 ≤ parts.length := by
  rcases parts with _ | ⟨f, _ | ⟨g, rest⟩⟩
  · exact absurd rfl hnil
  · exact absurd rfl (hsingle f)
  · rw [List.length_cons, List.length_cons]
    omega

theorem exists_cons_cons_of_two_le {parts : List Filter} (h : 2 ≤ parts.length) :
    ∃ f g rest, parts = f :: g :: rest := by
  rcases parts with _ | ⟨f, _ | ⟨g, rest⟩⟩
  · exact absurd h (by simp)
  · exact absurd h (by simp)
  · exact ⟨f, g, rest, rfl⟩

theorem isNormal_conjunction {parts : List Filter}
    (h : ∀ f ∈ parts, f.isNormal = true) : (conjunction parts).isNormal = true := by
  rw [conjunction]
  by_cases hnever : parts.any isNever = true
  · rw [if_pos hnever]
    rfl
  rw [if_neg hnever]
  have hkept := areReduced_kept h (fun f => rfl) hnever
  -- Nothing is kept, one part is kept as it is, or a conjunction of two at least.
  split
  · rfl
  · next f heq =>
    rw [heq, areReduced_iff] at hkept
    exact isNormal_of_isReduced (hkept f (by simp))
  · next hnil hsingle =>
    refine isNormal_of_isReduced ?_
    rw [isReduced, hkept, decide_eq_true (two_le_length hnil hsingle)]
    rfl

theorem isNormal_disjunction {parts : List Filter}
    (h : ∀ f ∈ parts, f.isNormal = true) : (disjunction parts).isNormal = true := by
  rw [disjunction]
  by_cases halways : parts.any isAlways = true
  · rw [if_pos halways]
    rfl
  rw [if_neg halways]
  have hkept := areReduced_kept h (fun f => Bool.or_comm _ _) halways
  -- As for conjunctions, with the two constants in exchanged roles.
  split
  · rfl
  · next f heq =>
    rw [heq, areReduced_iff] at hkept
    exact isNormal_of_isReduced (hkept f (by simp))
  · next hnil hsingle =>
    refine isNormal_of_isReduced ?_
    rw [isReduced, hkept, decide_eq_true (two_le_length hnil hsingle)]
    rfl

mutual

/-- Rebuilding gives a normal filter, whatever the filter was. -/
theorem isNormal_folded (f : Filter) : f.folded.isNormal = true := by
  cases f with
  | inOrganizations ids => exact isNormal_ofOrganizations ids
  | not part => exact isNormal_negation (isNormal_folded part)
  | all parts => exact isNormal_conjunction (isNormal_foldedParts parts)
  | any parts => exact isNormal_disjunction (isNormal_foldedParts parts)
  | _ => rfl

theorem isNormal_foldedParts (parts : List Filter) :
    ∀ f ∈ foldedParts parts, f.isNormal = true := by
  cases parts with
  | nil => exact fun f hf => absurd hf (by simp [foldedParts])
  | cons f rest =>
    rw [foldedParts, List.forall_mem_cons]
    exact ⟨isNormal_folded f, isNormal_foldedParts rest⟩

end

/-! ### Normal filters rebuild to themselves -/

theorem ofOrganizations_of_isReduced {ids : SortedSet OrganizationId}
    (h : (inOrganizations ids).isReduced = true) :
    ofOrganizations ids = inOrganizations ids := by
  rw [isReduced, Bool.not_eq_true'] at h
  rw [ofOrganizations, h, if_neg (by simp)]

/-! A joining constructor looks for the two constants; among reduced parts it finds
neither, so it keeps all of them. -/

section Constants

variable {parts : List Filter} {isConstant : Filter → Bool}

theorem not_any_of_areReduced (h : areReduced parts = true)
    (hconstant : ∀ {f : Filter}, f.isReduced = true → isConstant f = false) :
    ¬parts.any isConstant = true := by
  rw [areReduced_iff] at h
  rw [List.any_eq_true]
  rintro ⟨f, hmem, hf⟩
  rw [hconstant (h f hmem)] at hf
  exact absurd hf (by simp)

theorem filter_not_of_areReduced (h : areReduced parts = true)
    (hconstant : ∀ {f : Filter}, f.isReduced = true → isConstant f = false) :
    parts.filter (!isConstant ·) = parts := by
  rw [areReduced_iff] at h
  refine List.filter_eq_self.mpr ?_
  intro f hmem
  rw [hconstant (h f hmem), Bool.not_false]

end Constants

theorem conjunction_of_areReduced {parts : List Filter} (hlength : 2 ≤ parts.length)
    (h : areReduced parts = true) : conjunction parts = all parts := by
  have hnever := not_any_of_areReduced h isNever_of_isReduced
  have hkept := filter_not_of_areReduced h isAlways_of_isReduced
  obtain ⟨f, g, rest, rfl⟩ := exists_cons_cons_of_two_le hlength
  rw [conjunction, if_neg hnever, hkept]

theorem disjunction_of_areReduced {parts : List Filter} (hlength : 2 ≤ parts.length)
    (h : areReduced parts = true) : disjunction parts = any parts := by
  have halways := not_any_of_areReduced h isAlways_of_isReduced
  have hkept := filter_not_of_areReduced h isNever_of_isReduced
  obtain ⟨f, g, rest, rfl⟩ := exists_cons_cons_of_two_le hlength
  rw [disjunction, if_neg halways, hkept]

mutual

/-- A reduced filter is rebuilt as it is. -/
theorem folded_of_isReduced (f : Filter) (h : f.isReduced = true) : f.folded = f := by
  cases f with
  | inOrganizations ids => exact ofOrganizations_of_isReduced h
  | not part =>
    rw [isReduced, Bool.and_eq_true, Bool.not_eq_true'] at h
    rw [folded, folded_of_isReduced part h.2]
    exact negation_of_isReduced h.2 h.1
  | all parts =>
    rw [isReduced, Bool.and_eq_true, decide_eq_true_iff] at h
    rw [folded, foldedParts_of_areReduced parts h.2]
    exact conjunction_of_areReduced h.1 h.2
  | any parts =>
    rw [isReduced, Bool.and_eq_true, decide_eq_true_iff] at h
    rw [folded, foldedParts_of_areReduced parts h.2]
    exact disjunction_of_areReduced h.1 h.2
  | _ => rfl

theorem foldedParts_of_areReduced (parts : List Filter) (h : areReduced parts = true) :
    foldedParts parts = parts := by
  cases parts with
  | nil => rfl
  | cons f rest =>
    rw [areReduced, Bool.and_eq_true] at h
    rw [foldedParts, folded_of_isReduced f h.1, foldedParts_of_areReduced rest h.2]

end

theorem folded_of_isNormal {f : Filter} (h : f.isNormal = true) : f.folded = f := by
  rw [isNormal, Bool.or_eq_true, Bool.or_eq_true, isAlways_iff, isNever_iff] at h
  rcases h with (rfl | rfl) | h
  · rfl
  · rfl
  · exact folded_of_isReduced f h

/-- A filter is normal exactly if rebuilding leaves it as it is. -/
theorem folded_eq_self_iff {f : Filter} : f.folded = f ↔ f.Normal := by
  rw [← isNormal_iff]
  constructor
  · intro h
    rw [← h]
    exact isNormal_folded f
  · exact folded_of_isNormal

end Filter

theorem Role.isNormal_filter (v : Viewer) (r : Role) : (r.filter v).isNormal = true := by
  cases v with
  | anonymous => rfl
  | authenticated p =>
    cases r with
    | organizationMember => exact Filter.isNormal_ofOrganizations p.organizations
    | organizationAdmin => exact Filter.isNormal_ofOrganizations p.administered
    | _ => rfl

namespace Rule

mutual

/-- What a rule leaves is normal, for every viewer and set of capabilities. -/
theorem isNormal_residual (v : Viewer) (cs : CapabilitySet) (r : Rule) :
    (r.residual v cs).isNormal = true := by
  cases r with
  | capability c => exact Filter.isNormal_constant _
  | role r => exact Role.isNormal_filter v r
  | flag f => cases f <;> rfl
  | not part => exact Filter.isNormal_negation (isNormal_residual v cs part)
  | all parts => exact Filter.isNormal_conjunction (isNormal_residuals v cs parts)
  | any parts => exact Filter.isNormal_disjunction (isNormal_residuals v cs parts)

theorem isNormal_residuals (v : Viewer) (cs : CapabilitySet) (parts : List Rule) :
    ∀ f ∈ residuals v cs parts, f.isNormal = true := by
  cases parts with
  | nil => exact fun f hf => absurd hf (by simp [residuals])
  | cons r rest =>
    rw [residuals, List.forall_mem_cons]
    exact ⟨isNormal_residual v cs r, isNormal_residuals v cs rest⟩

end

end Rule

/-- **The folding normal form.**  What a rule leaves for a viewer is normal;
rebuilding makes any filter normal without changing what it selects; and the
normal filters are exactly those that rebuilding leaves as they are, so
rebuilding a second time changes nothing. -/
theorem folding_reaches_normal_form :
    (∀ (r : Rule) (v : Viewer) (cs : CapabilitySet), (r.residual v cs).Normal) ∧
    (∀ f : Filter, f.folded.Normal ∧ ∀ p, f.folded.selects p = f.selects p) ∧
    (∀ f : Filter, f.folded = f ↔ f.Normal) ∧
    (∀ f : Filter, f.folded.folded = f.folded) := by
  refine ⟨?_, ?_, fun f => Filter.folded_eq_self_iff, ?_⟩
  · intro r v cs
    exact Filter.isNormal_iff.mp (Rule.isNormal_residual v cs r)
  · intro f
    exact ⟨Filter.isNormal_iff.mp f.isNormal_folded, f.selects_folded⟩
  · intro f
    exact Filter.folded_of_isNormal f.isNormal_folded

example : (Filter.any [.not (.not .isPublic), .inOrganizations ∅, .all [.isPublic]]).folded =
    .any [.isPublic, .isPublic] := rfl

end JudgePolicy
