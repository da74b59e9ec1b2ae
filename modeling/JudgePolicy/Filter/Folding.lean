/-
The normal form of filters.

A filter is normal if it is a constant, or if it holds no constant anywhere, no
negation of a negation, no empty set of organizations, and no conjunction or
disjunction of fewer than two parts.  `folded` rebuilds a filter from its leaves
with the folding constructors:

* `selects_folded` — this does not change the meaning.
-/
import JudgePolicy.Filter
namespace JudgePolicy

namespace Filter

mutual

/-- The filter rebuilt with the folding constructors. -/
def folded : Filter → Filter
  | inOrganizations ids => ofOrganizations ids
  | not part => negation (folded part)
  | all parts => conjunction (foldedParts parts)
  | any parts => disjunction (foldedParts parts)
  | f => f

def foldedParts : List Filter → List Filter
  | [] => []
  | f :: rest => folded f :: foldedParts rest

end

def isNot : Filter → Bool
  | not _ => true
  | _ => false

mutual

/-- Whether a filter is free of constants and of everything that folds. -/
def isReduced : Filter → Bool
  | always | never => false
  | isPublic | isOrganizationPrivate | authoredBy _ | curatedBy _ | testedBy _ => true
  | inOrganizations ids => !ids.isEmpty
  | not part => !isNot part && isReduced part
  | all parts => decide (2 ≤ parts.length) && areReduced parts
  | any parts => decide (2 ≤ parts.length) && areReduced parts

def areReduced : List Filter → Bool
  | [] => true
  | f :: rest => isReduced f && areReduced rest

end

/-- Whether a filter is in normal form. -/
def isNormal (f : Filter) : Bool := f.isAlways || f.isNever || f.isReduced

mutual

/-- Rebuilding does not change the meaning. -/
theorem selects_folded (f : Filter) (p : Problem) : f.folded.selects p = f.selects p := by
  cases f with
  | inOrganizations ids => simp [folded, selects]
  | not part => simp [folded, selects, selects_folded part p]
  | all parts => simp [folded, selects, allSelect_eq, all_folded parts p]
  | any parts => simp [folded, selects, anySelects_eq, any_folded parts p]
  | _ => rfl

theorem all_folded (parts : List Filter) (p : Problem) :
    (foldedParts parts).all (selects · p) = parts.all (selects · p) := by
  cases parts with
  | nil => rfl
  | cons f rest => simp [foldedParts, selects_folded f p, all_folded rest p]

theorem any_folded (parts : List Filter) (p : Problem) :
    (foldedParts parts).any (selects · p) = parts.any (selects · p) := by
  cases parts with
  | nil => rfl
  | cons f rest => simp [foldedParts, selects_folded f p, any_folded rest p]

end

end Filter

end JudgePolicy
