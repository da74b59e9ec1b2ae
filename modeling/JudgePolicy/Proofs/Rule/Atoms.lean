/-
What a rule asks for, and how its answer follows the answers to that.

A rule asks for capabilities, roles and flags, its *atoms*.  `Rule.atoms` lists
them, each with the number of negations it lies under:

* `Rises.holdsIn` — if the atoms under an even number of negations can only turn
  to true, and the others only to false, then the rule can only turn to true;
* `holdsIn_congr` — so a rule reads nothing but its atoms;
* `residual_congr` — and the filter it leaves for a viewer reads nothing of the
  viewer but the capabilities and the roles it asks for.

Design notes: going below a negation exchanges the two settings that are
compared.  With both settings general, one statement covers the two directions,
and the case of a negation is the statement itself with the settings exchanged.
-/
import JudgePolicy.Rule
import Mathlib.Algebra.Group.Nat.Even
namespace JudgePolicy

namespace Rule

/-! ### Induction over rules -/

/-- Induction over a rule: what holds of all parts holds of what is made of them. -/
@[elab_as_elim]
theorem inductionOn {motive : Rule → Prop} (r : Rule)
    (capability : ∀ c, motive (.capability c)) (role : ∀ x, motive (.role x))
    (flag : ∀ f, motive (.flag f)) (not : ∀ part, motive part → motive (.not part))
    (all : ∀ parts, (∀ part ∈ parts, motive part) → motive (.all parts))
    (any : ∀ parts, (∀ part ∈ parts, motive part) → motive (.any parts)) : motive r := by
  refine @Rule.rec motive (fun parts => ∀ part ∈ parts, motive part)
    capability role flag not all any ?_ ?_ r
  · intro part hpart
    exact absurd hpart List.not_mem_nil
  · intro head rest hhead hrest
    exact List.forall_mem_cons.mpr ⟨hhead, hrest⟩

theorem allHold_eq (cs : CapabilitySet) (rs : RoleSet) (p : Problem) (parts : List Rule) :
    allHold cs rs p parts = parts.all (holds cs rs p) := by
  induction parts with
  | nil => rfl
  | cons r rest ih => rw [allHold, ih, List.all_cons]

theorem anyHolds_eq (cs : CapabilitySet) (rs : RoleSet) (p : Problem) (parts : List Rule) :
    anyHolds cs rs p parts = parts.any (holds cs rs p) := by
  induction parts with
  | nil => rfl
  | cons r rest ih => rw [anyHolds, ih, List.any_cons]

theorem residuals_eq (v : Viewer) (cs : CapabilitySet) (parts : List Rule) :
    residuals v cs parts = parts.map (residual v cs) := by
  induction parts with
  | nil => rfl
  | cons r rest ih => rw [residuals, ih, List.map_cons]

/-! ### The atoms of a rule -/

/-- One thing that a rule asks for. -/
inductive Atom where
  | capability (c : Capability)
  | role (r : Role)
  | flag (f : Flag)
  deriving DecidableEq

/-- Whether an atom asks for something that is granted to the viewer, and not for
a property of the problem. -/
def Atom.IsGrant : Atom → Prop
  | capability _ | role _ => True
  | flag _ => False

instance : DecidablePred Atom.IsGrant := fun a =>
  match a with
  | .capability _ | .role _ => isTrue trivial
  | .flag _ => isFalse id

mutual

/-- The atoms of a rule, each with the number of negations it lies under. -/
def atoms : Rule → List (Nat × Atom)
  | capability c => [(0, .capability c)]
  | role r => [(0, .role r)]
  | flag f => [(0, .flag f)]
  | not part => (atoms part).map fun a => (a.1 + 1, a.2)
  | all parts => atomsOfParts parts
  | any parts => atomsOfParts parts

def atomsOfParts : List Rule → List (Nat × Atom)
  | [] => []
  | r :: rest => atoms r ++ atomsOfParts rest

end

theorem mem_atomsOfParts {a : Nat × Atom} {parts : List Rule} :
    a ∈ atomsOfParts parts ↔ ∃ part ∈ parts, a ∈ part.atoms := by
  induction parts with
  | nil => simp [atomsOfParts]
  | cons r rest ih => simp [atomsOfParts, ih]

theorem mem_atoms_not {n : Nat} {a : Atom} {part : Rule} (h : (n, a) ∈ part.atoms) :
    (n + 1, a) ∈ (not part).atoms :=
  List.mem_map.mpr ⟨(n, a), h, rfl⟩

theorem mem_atoms_all {a : Nat × Atom} {part : Rule} {parts : List Rule} (hpart : part ∈ parts)
    (h : a ∈ part.atoms) : a ∈ (all parts).atoms :=
  mem_atomsOfParts.mpr ⟨part, hpart, h⟩

theorem mem_atoms_any {a : Nat × Atom} {part : Rule} {parts : List Rule} (hpart : part ∈ parts)
    (h : a ∈ part.atoms) : a ∈ (any parts).atoms :=
  mem_atomsOfParts.mpr ⟨part, hpart, h⟩

/-! ### Settings -/

/-- What a rule is read in: a problem, and what the viewer holds and is to it. -/
structure Setting where
  capabilities : CapabilitySet
  roles : RoleSet
  problem : Problem

/-- Whether an atom is true in a setting. -/
def Atom.holdsIn (s : Setting) : Atom → Bool
  | capability c => decide (c ∈ s.capabilities)
  | role r => decide (r ∈ s.roles)
  | flag f => f.holds s.problem

def holdsIn (s : Setting) (r : Rule) : Bool := r.holds s.capabilities s.roles s.problem

section HoldsIn

variable {s : Setting} {part : Rule} {parts : List Rule}

theorem holdsIn_not_iff : (not part).holdsIn s = true ↔ ¬part.holdsIn s = true := by
  rw [holdsIn, holds, Bool.not_eq_true', ← Bool.not_eq_true]
  rfl

theorem holdsIn_all_iff : (all parts).holdsIn s = true ↔
    ∀ part ∈ parts, part.holdsIn s = true := by
  rw [holdsIn, holds, allHold_eq, List.all_eq_true]
  rfl

theorem holdsIn_any_iff : (any parts).holdsIn s = true ↔
    ∃ part ∈ parts, part.holdsIn s = true := by
  rw [holdsIn, holds, anyHolds_eq, List.any_eq_true]
  rfl

end HoldsIn

/-! ### Rising atoms -/

/-- From one setting to another, no atom under an even number of negations turns
to false, and no other atom turns to true. -/
structure Rises (s t : Setting) (r : Rule) : Prop where
  even : ∀ n a, (n, a) ∈ r.atoms → Even n → a.holdsIn s = true → a.holdsIn t = true
  odd : ∀ n a, (n, a) ∈ r.atoms → ¬Even n → a.holdsIn t = true → a.holdsIn s = true

namespace Rises

variable {s t : Setting} {part : Rule} {parts : List Rule}

/-- Below a negation, the atoms rise the other way. -/
theorem of_not (h : Rises s t (.not part)) : Rises t s part where
  even n a ha hn := h.odd (n + 1) a (mem_atoms_not ha) (by rwa [Nat.even_add_one, not_not])
  odd n a ha hn := h.even (n + 1) a (mem_atoms_not ha) (by rwa [Nat.even_add_one])

theorem of_all (h : Rises s t (.all parts)) (hpart : part ∈ parts) : Rises s t part where
  even n a ha := h.even n a (mem_atoms_all hpart ha)
  odd n a ha := h.odd n a (mem_atoms_all hpart ha)

theorem of_any (h : Rises s t (.any parts)) (hpart : part ∈ parts) : Rises s t part where
  even n a ha := h.even n a (mem_atoms_any hpart ha)
  odd n a ha := h.odd n a (mem_atoms_any hpart ha)

/-- **Monotonicity.**  If its atoms rise, a rule that holds goes on to hold. -/
theorem holdsIn {r : Rule} (h : Rises s t r) (hs : r.holdsIn s = true) :
    r.holdsIn t = true := by
  induction r using Rule.inductionOn generalizing s t with
  | capability c => exact h.even 0 (.capability c) (List.mem_singleton_self _) Even.zero hs
  | role x => exact h.even 0 (.role x) (List.mem_singleton_self _) Even.zero hs
  | flag f => exact h.even 0 (.flag f) (List.mem_singleton_self _) Even.zero hs
  | not part ih =>
    -- What holds in `t` below the negation held in `s` before.
    rw [holdsIn_not_iff] at hs ⊢
    exact fun ht => hs (ih h.of_not ht)
  | all parts ih =>
    rw [holdsIn_all_iff] at hs ⊢
    intro part hpart
    exact ih part hpart (h.of_all hpart) (hs part hpart)
  | any parts ih =>
    rw [holdsIn_any_iff] at hs ⊢
    obtain ⟨part, hpart, hholds⟩ := hs
    exact ⟨part, hpart, ih part hpart (h.of_any hpart) hholds⟩

end Rises

/-- A rule gives the same answer wherever its atoms do. -/
theorem holdsIn_congr {s t : Setting} {r : Rule}
    (h : ∀ n a, (n, a) ∈ r.atoms → a.holdsIn s = a.holdsIn t) : r.holdsIn s = r.holdsIn t := by
  have rises : Rises s t r :=
    ⟨fun n a ha _ hs => h n a ha ▸ hs, fun n a ha _ ht => (h n a ha).symm ▸ ht⟩
  have falls : Rises t s r :=
    ⟨fun n a ha _ ht => (h n a ha).symm ▸ ht, fun n a ha _ hs => h n a ha ▸ hs⟩
  exact Bool.eq_iff_iff.mpr ⟨rises.holdsIn, falls.holdsIn⟩

/-! ### Filters -/

/-- The filters that a rule leaves for two viewers are the same, part by part, if
the viewers hold the same capabilities and have the same filters for its roles. -/
theorem residual_congr {v w : Viewer} {cs : CapabilitySet} {r : Rule}
    (h : ∀ n x, (n, Atom.role x) ∈ r.atoms → x.filter v = x.filter w) :
    r.residual v cs = r.residual w cs := by
  induction r using Rule.inductionOn with
  | capability c => rfl
  | role x => exact h 0 x (List.mem_singleton_self _)
  | flag f => rfl
  | not part ih =>
    rw [residual, residual, ih fun n x hx => h (n + 1) x (mem_atoms_not hx)]
  | all parts ih =>
    have hparts : parts.map (residual v cs) = parts.map (residual w cs) :=
      List.map_congr_left fun part hpart =>
        ih part hpart fun n x hx => h n x (mem_atoms_all hpart hx)
    rw [residual, residual, residuals_eq, residuals_eq, hparts]
  | any parts ih =>
    have hparts : parts.map (residual v cs) = parts.map (residual w cs) :=
      List.map_congr_left fun part hpart =>
        ih part hpart fun n x hx => h n x (mem_atoms_any hpart hx)
    rw [residual, residual, residuals_eq, residuals_eq, hparts]

end Rule

end JudgePolicy
