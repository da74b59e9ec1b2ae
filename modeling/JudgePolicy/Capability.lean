/-
Capabilities: rights granted for the whole site, whatever the object.

A capability is granted through a permission name.  `ofPermission?` knows the
names of capabilities and no others; `ofPermission?_permission` says that each
capability is found under its own name.
-/
import JudgePolicy.Order
import JudgePolicy.SortedSet
namespace JudgePolicy

/-- A right that does not depend on an object. -/
inductive Capability where
  /-- Edit every problem. -/
  | editAll
  /-- Edit problems the holder is an editor of. -/
  | editOwn
  /-- Edit every public problem; needs `editOwn` as well. -/
  | editPublic
  /-- See every problem. -/
  | seeAll
  /-- See the organization-private problems of the holder's organizations. -/
  | seeOrganization
  /-- Rejudge and otherwise manage submissions. -/
  | rejudge
  /-- See every editorial, published or not. -/
  | seePrivateSolution
  deriving DecidableEq

namespace Capability

/-- All capabilities, in ascending order. -/
def all : List Capability :=
  [editAll, editOwn, editPublic, seeAll, seeOrganization, rejudge, seePrivateSolution]

theorem mem_all (c : Capability) : c ∈ all := by
  cases c <;> decide

/-- Capabilities are ordered by their place in the list of all. -/
instance : Ord Capability := ⟨compareOn (all.idxOf ·)⟩

instance : Std.TransOrd Capability :=
  inferInstanceAs (Std.TransCmp (compareOn (all.idxOf ·)))

instance : Std.LawfulEqOrd Capability :=
  lawfulEqCmp_compareOn fun a b => by cases a <;> cases b <;> decide

/-- The permission name that grants a capability. -/
def permission : Capability → String
  | editAll => "problem:edit_all"
  | editOwn => "problem:edit_own"
  | editPublic => "problem:edit_public"
  | seeAll => "problem:see_all"
  | seeOrganization => "problem:see_organization"
  | rejudge => "problem:rejudge"
  | seePrivateSolution => "solution:see_private"

/-- The capability a permission name grants, if any. -/
def ofPermission? (s : String) : Option Capability := all.find? (·.permission == s)

def unknownMessage (s : String) : String := "unknown capability '" ++ s ++ "'"

theorem ofPermission?_permission (c : Capability) : ofPermission? c.permission = some c := by
  cases c <;> decide

theorem permission_of_ofPermission? {s : String} {c : Capability}
    (h : ofPermission? s = some c) : c.permission = s := by
  simpa using List.find?_some h

end Capability

abbrev CapabilitySet := SortedSet Capability

namespace CapabilitySet

/-- The set of all capabilities. -/
def all : CapabilitySet := SortedSet.ofList Capability.all

theorem mem_all (c : Capability) : c ∈ all := by
  simp [all, Capability.mem_all]

end CapabilitySet

end JudgePolicy
