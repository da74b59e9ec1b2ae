/-
Lists and single decisions agree.

A rule is read in two ways: `Rule.holds` decides about one problem, and
`Rule.residual` leaves a filter that goes over a whole list.  The two readings
give the same answer everywhere:

* `isSelection_iff` — keeping the order and the number of occurrences leaves one
  possible outcome of a selection;
* `bulk_agrees_with_scalar` — every rule's filter accepts what the rule grants,
  and the three lists of a viewer hold exactly what the viewer is granted.

Design notes: a selection is described by what a reader of the list can check
(no item moves, no item is added or lost), and not by how it is computed.
-/
import JudgePolicy.Access
import Mathlib.Tactic.ByContra
namespace JudgePolicy

section Selection

variable {α : Type} [DecidableEq α] {accepts : α → Bool} {l m : List α}

/-- `m` is what a test leaves of `l`: the accepted items stand in the order of
`l`, each as often as in `l`, and nothing else is there. -/
structure IsSelection (accepts : α → Bool) (l m : List α) : Prop where
  sublist : m.Sublist l
  count : ∀ a, m.count a = if accepts a then l.count a else 0

theorem IsSelection.accepts_of_mem (h : IsSelection accepts l m) {a : α} (ha : a ∈ m) :
    accepts a = true := by
  by_contra hn
  have hcount := h.count a
  rw [if_neg hn] at hcount
  exact List.count_eq_zero.mp hcount ha

theorem isSelection_filter (accepts : α → Bool) (l : List α) :
    IsSelection accepts l (l.filter accepts) := by
  refine ⟨List.filter_sublist, fun a => ?_⟩
  by_cases ha : accepts a = true
  · rw [if_pos ha, List.count_filter ha]
  · rw [if_neg ha, List.count_eq_zero]
    intro hmem
    exact ha (List.mem_filter.mp hmem).2

/-- A test leaves only one selection of a list. -/
theorem isSelection_iff : IsSelection accepts l m ↔ m = l.filter accepts := by
  constructor
  · intro h
    have hall : m.filter accepts = m :=
      List.filter_eq_self.mpr fun a ha => h.accepts_of_mem ha
    -- `m` is no longer than what the test leaves of `l`, and a sublist of it.
    have hsub : m.Sublist (l.filter accepts) := by
      have hfilter := h.sublist.filter accepts
      rwa [hall] at hfilter
    have hperm : m.Perm (l.filter accepts) := by
      rw [List.perm_iff_count]
      intro a
      rw [h.count a, (isSelection_filter accepts l).count a]
    exact hsub.eq_of_length hperm.length_eq
  · rintro rfl
    exact isSelection_filter accepts l

end Selection

theorem Filter.isSelection_select (f : Filter) (problems : List Problem) :
    IsSelection f.selects problems (f.select problems) :=
  isSelection_filter f.selects problems

namespace Rule

/-- The filter that a rule leaves takes out of a list what the rule grants on. -/
theorem isSelection_residual (r : Rule) (v : Viewer) (cs : CapabilitySet)
    (problems : List Problem) :
    IsSelection (fun p => r.holds cs (v.rolesOn p) p) problems
      ((r.residual v cs).select problems) := by
  have hselects : (r.residual v cs).selects = fun p => r.holds cs (v.rolesOn p) p := by
    funext p
    exact selects_residual v cs p r
  have h := (r.residual v cs).isSelection_select problems
  rwa [hselects] at h

end Rule

/-- **Lists and single decisions agree.**  A rule's filter accepts a problem
exactly if the rule grants on it, for every rule, viewer and set of
capabilities.  So the three filters of a viewer accept what the viewer may see,
edit and manage one by one, and select just that from every list. -/
theorem bulk_agrees_with_scalar :
    (∀ (r : Rule) (v : Viewer) (cs : CapabilitySet) (p : Problem),
      (r.residual v cs).selects p = r.holds cs (v.rolesOn p) p) ∧
    (∀ (r : Rule) (v : Viewer) (cs : CapabilitySet) (problems : List Problem),
      IsSelection (fun p => r.holds cs (v.rolesOn p) p) problems
        ((r.residual v cs).select problems)) ∧
    (∀ (v : Viewer) (p : Problem),
      v.visible.selects p = v.canSee p ∧
      v.editable.selects p = v.canEdit p ∧
      v.manageable.selects p = v.canManageSubmissions p) ∧
    (∀ (v : Viewer) (problems : List Problem),
      IsSelection v.canSee problems (v.visible.select problems) ∧
      IsSelection v.canEdit problems (v.editable.select problems) ∧
      IsSelection v.canManageSubmissions problems (v.manageable.select problems)) := by
  refine ⟨fun r v cs p => Rule.selects_residual v cs p r,
    fun r v cs problems => r.isSelection_residual v cs problems, ?_, ?_⟩
  · intro v p
    exact ⟨v.selects_visible p, v.selects_editable p, v.selects_manageable p⟩
  · intro v problems
    -- Each list is the residual of its rule under the viewer's own capabilities.
    have hrule := fun r : Rule => r.isSelection_residual v v.capabilities problems
    exact ⟨hrule .visibility, hrule .edit, hrule .manageSubmissions⟩

end JudgePolicy
