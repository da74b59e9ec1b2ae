/-
Rights form a chain.

Whoever manages the submissions to a problem edits it, whoever edits it sees it, and
reads its editorials before they are published.

* `Rule.Entails` — one rule entails another if it never grants without the other;
* `manageSubmissions_entails_edit`, `edit_entails_visibility` — so do the three rules;
* `Entails.may`, `Entails.sublist_select` — what is entailed holds of single
  decisions, and of lists without moving a problem;
* `isChain_of_result_problemAccess` — no inquiry, into whatever store, reports an access
  in which a link of the chain is missing;
* `rights_form_a_chain` — all of this together.

Design notes: entailment is stated over all settings and read off the shape of the
rules.  A rule entails every disjunction it is a part of, and a conjunction entails
each of its parts; what the other parts ask for does not matter.
-/
import JudgePolicy.Inquiry
import JudgePolicy.Proofs.Access.Noninterference
import JudgePolicy.Proofs.Store.Additions
import Mathlib.Data.List.Basic
namespace JudgePolicy

/-! ### Entailment -/

namespace Rule

/-- In no setting does the first rule grant without the second one. -/
def Entails (r q : Rule) : Prop := ∀ s : Setting, r.holdsIn s = true → q.holdsIn s = true

namespace Entails

variable {r q part : Rule} {parts : List Rule}

theorem any_of_mem (hpart : part ∈ parts) : part.Entails (any parts) := by
  intro s hs
  rw [holdsIn_any_iff]
  exact ⟨part, hpart, hs⟩

theorem of_mem_all (hpart : part ∈ parts) : (all parts).Entails part := by
  intro s hs
  rw [holdsIn_all_iff] at hs
  exact hs part hpart

/-- A disjunction entails what all of its parts entail. -/
theorem of_any (h : ∀ part ∈ parts, part.Entails q) : (any parts).Entails q := by
  intro s hs
  rw [holdsIn_any_iff] at hs
  obtain ⟨part, hpart, hholds⟩ := hs
  exact h part hpart s hholds

/-! ### What is entailed is granted -/

theorem may (h : r.Entails q) {v : Viewer} {p : Problem} (hr : v.may r p = true) :
    v.may q p = true :=
  h ⟨v.capabilities, v.rolesOn p, p⟩ hr

/-- The list of what a rule grants is left of the list of what it entails when some
problems are taken out. -/
theorem sublist_select (h : r.Entails q) (v : Viewer) (problems : List Problem) :
    ((v.filter r).select problems).Sublist ((v.filter q).select problems) := by
  refine List.monotone_filter_right problems fun p hp => ?_
  rw [v.selects_filter] at hp ⊢
  exact h.may hp

end Entails

/-! ### The three rules -/

theorem edit_entails_visibility : edit.Entails visibility :=
  .any_of_mem (by simp)

/-- Both ways to manage submissions lead through editing: one by the capability that
is enough for it, the other by name. -/
theorem manageSubmissions_entails_edit : manageSubmissions.Entails edit := by
  refine .of_any fun part hpart => ?_
  rw [List.mem_cons, List.mem_singleton] at hpart
  obtain rfl | rfl := hpart
  · exact .any_of_mem List.mem_cons_self
  · exact .of_mem_all (by simp)

end Rule

/-! ### The chain -/

/-- Nothing is manageable without being editable, nor editable without being
accessible. -/
structure Access.IsChain (a : Access) : Prop where
  editable : a.manageable = true → a.editable = true
  accessible : a.editable = true → a.accessible = true

namespace Viewer

variable {v : Viewer} {p : Problem}

theorem canEdit_of_canManageSubmissions (h : v.canManageSubmissions p = true) :
    v.canEdit p = true :=
  Rule.manageSubmissions_entails_edit.may h

theorem canSee_of_canEdit (h : v.canEdit p = true) : v.canSee p = true :=
  Rule.edit_entails_visibility.may h

/-- Editing opens every editorial of the problem, whatever its date. -/
theorem canRead_of_canEdit {e : Editorial} {now : Instant} (h : v.canEdit e.problem = true) :
    v.canRead e now = true :=
  canRead_iff.mpr (.inr (.inr (.inl h)))

theorem isChain_accessTo (v : Viewer) (p : Problem) : (v.accessTo p).IsChain :=
  ⟨canEdit_of_canManageSubmissions, canSee_of_canEdit⟩

end Viewer

/-- Whatever a store answers, an access that is reported forms a chain. -/
theorem Store.isChain_of_result_problemAccess {s : Store} {id : Option ProfileId}
    {code : String} {a : Access} (h : (s.problemAccess id code).result = .ok a) :
    a.IsChain := by
  -- An access is only ever reported as a decision about some viewer and some problem.
  obtain ⟨p, -, hp⟩ := Inquiry.exists_of_result_bind h
  obtain ⟨v, -, hv⟩ := Inquiry.exists_of_result_bind hp
  have ha : v.accessTo p = a := Except.ok.inj hv
  exact ha ▸ v.isChain_accessTo p

/-- **Rights form a chain.**  Managing the submissions to a problem implies editing it;
editing it implies seeing it and reading its editorials, published or not.  Of the three
lists of a viewer each is a sublist of the next one.  The three decisions made together
are those made one by one, so no access that is ever reported lacks a link. -/
theorem rights_form_a_chain :
    (∀ (v : Viewer) (p : Problem),
      (v.canManageSubmissions p = true → v.canEdit p = true) ∧
      (v.canEdit p = true → v.canSee p = true) ∧
      (v.canEdit p = true → ∀ (e : Editorial) (now : Instant), e.problem = p →
        v.canRead e now = true)) ∧
    (∀ (v : Viewer) (problems : List Problem),
      (v.manageable.select problems).Sublist (v.editable.select problems) ∧
      (v.editable.select problems).Sublist (v.visible.select problems)) ∧
    (∀ (v : Viewer) (p : Problem),
      (Audit.access v p).value = ⟨v.canSee p, v.canEdit p, v.canManageSubmissions p⟩ ∧
      (Audit.access v p).value.IsChain) ∧
    (∀ (s : Store) (id : Option ProfileId) (code : String) (a : Access),
      (s.problemAccess id code).result = .ok a → a.IsChain) := by
  refine ⟨?_, ?_, ?_, ?_⟩
  · intro v p
    refine ⟨Viewer.canEdit_of_canManageSubmissions, Viewer.canSee_of_canEdit, ?_⟩
    rintro hedit e now rfl
    exact Viewer.canRead_of_canEdit hedit
  · intro v problems
    exact ⟨Rule.manageSubmissions_entails_edit.sublist_select v problems,
      Rule.edit_entails_visibility.sublist_select v problems⟩
  · intro v p
    exact ⟨rfl, v.isChain_accessTo p⟩
  · intro s id code a h
    exact Store.isChain_of_result_problemAccess h

/-- An author of `sharedProblem` with the right to edit own problems and to judge
submissions again. -/
def rejudgingAuthor : Profile where
  id := 8
  permissions := SortedSet.ofList [Capability.editOwn.permission, Capability.rejudge.permission]

/-- The author may do all that there is to do, without a capability for all problems;
another author, without any capability, only sees the problem. -/
theorem rights_form_a_chain_rejudging :
    (Viewer.authenticated rejudgingAuthor).canManageSubmissions sharedProblem = true ∧
    (Viewer.authenticated rejudgingAuthor).canSee sharedProblem = true ∧
    (∀ now publishOn : Instant,
      (Viewer.authenticated rejudgingAuthor).canRead ⟨sharedProblem, false, publishOn, [], []⟩ now =
        true) ∧
    (Viewer.authenticated { id := 7 }).canEdit sharedProblem = false ∧
    (Viewer.authenticated { id := 7 }).canSee sharedProblem = true ∧
    ∃ a : Access, a.manageable = true ∧ a.IsChain ∧
      ((MemoryStore.ofAdditions
        [.problem sharedProblem, .profile rejudgingAuthor]).toStore.problemAccess
          (some 8) "shared").result = .ok a := by
  obtain ⟨hsingle, -, -, hinquiry⟩ := rights_form_a_chain
  obtain ⟨hedit, hsee, hread⟩ := hsingle (.authenticated rejudgingAuthor) sharedProblem
  have hmanage : (Viewer.authenticated rejudgingAuthor).canManageSubmissions sharedProblem =
      true := by decide
  have hresult : ((MemoryStore.ofAdditions
      [.problem sharedProblem, .profile rejudgingAuthor]).toStore.problemAccess
        (some 8) "shared").result = .ok ⟨true, true, true⟩ := by rfl
  refine ⟨hmanage, hsee (hedit hmanage), ?_, by decide, by decide, _, rfl, ?_, hresult⟩
  · intro now publishOn
    exact hread (hedit hmanage) ⟨sharedProblem, false, publishOn, [], []⟩ now rfl
  · exact hinquiry _ _ _ _ hresult

end JudgePolicy
