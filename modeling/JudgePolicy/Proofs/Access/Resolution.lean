/-
Which capabilities the granted names amount to.

* `Capability.ofPermission?_eq_some_iff` — a name is one capability's or none's, letter by letter;
* `CapabilitySet.mem_named`, `named_filter` — a list of names resolves to the capabilities whose
  names are in it, whatever else is in it;
* `Profile.capabilities_apply`, `capabilities_foldl_apply` — what one call adds to the
  capabilities of a profile, and what a run of calls adds;
* `capabilities_resolve_by_name` — so a viewer holds what the names say, and a superuser all.

Design notes: a run of calls is a fold, and so is the union of what the calls name, so one step
is all there is to show.  It holds of superusers as well: to all capabilities nothing is added.
-/
import JudgePolicy.Profile
namespace JudgePolicy

/-! ### Names -/

/-- A name is a capability's exactly if it is the name that the capability has. -/
theorem Capability.ofPermission?_eq_some_iff {s : String} {c : Capability} :
    ofPermission? s = some c ↔ s = c.permission := by
  constructor
  · intro h
    exact (permission_of_ofPermission? h).symm
  · rintro rfl
    exact ofPermission?_permission c

namespace CapabilitySet

/-- The capabilities that a list of names resolves to. -/
def named (names : List String) : CapabilitySet :=
  SortedSet.ofList (names.filterMap Capability.ofPermission?)

theorem mem_named {names : List String} {c : Capability} :
    c ∈ named names ↔ c.permission ∈ names := by
  rw [named, SortedSet.mem_ofList, List.mem_filterMap]
  simp only [Capability.ofPermission?_eq_some_iff, exists_eq_right]

/-- Other names neither add a capability nor hide one. -/
theorem named_filter (names : List String) :
    named (names.filter fun s => (Capability.ofPermission? s).isSome) = named names := by
  refine SortedSet.ext fun c => ?_
  rw [mem_named, mem_named, List.mem_filter, Capability.ofPermission?_permission]
  exact and_iff_left rfl

/-- Capabilities are found again under their names. -/
theorem named_permissions (cs : List Capability) :
    named (cs.map Capability.permission) = SortedSet.ofList cs := by
  refine SortedSet.ext fun c => ?_
  rw [mem_named, SortedSet.mem_ofList, List.mem_map]
  constructor
  · rintro ⟨d, hd, hname⟩
    have hsame : some d = some c := by
      rw [← d.ofPermission?_permission, hname, c.ofPermission?_permission]
    exact Option.some.inj hsame ▸ hd
  · intro hc
    exact ⟨c, hc, rfl⟩

end CapabilitySet

/-! ### Calls -/

/-- A call that adds to a profile: names, or capabilities by their names. -/
inductive Grant where
  | names (names : List String)
  | capabilities (cs : List Capability)

namespace Grant

/-- The names that a call adds. -/
def added : Grant → List String
  | names l => l
  | capabilities cs => cs.map Capability.permission

def apply (p : Profile) : Grant → Profile
  | names l => p.grantPermissions l
  | capabilities cs => p.grantCapabilities cs

end Grant

namespace Profile

/-- One call adds what its names resolve to. -/
theorem capabilities_apply (p : Profile) (g : Grant) :
    (g.apply p).capabilities = p.capabilities.union (CapabilitySet.named g.added) := by
  have hnames (l : List String) :
      (p.grantPermissions l).capabilities = p.capabilities.union (CapabilitySet.named l) := by
    refine SortedSet.ext fun c => ?_
    rw [SortedSet.mem_union, mem_capabilities, mem_capabilities, CapabilitySet.mem_named,
      grantPermissions, SortedSet.mem_insertAll, or_assoc]
  -- capabilities are granted as names, so both calls are this one
  cases g with
  | names l => exact hnames l
  | capabilities cs => exact hnames (cs.map Capability.permission)

/-- A run of calls adds what the names of each resolve to. -/
theorem capabilities_foldl_apply (p : Profile) (calls : List Grant) :
    (calls.foldl Grant.apply p).capabilities =
      calls.foldl (fun held g => held.union (CapabilitySet.named g.added)) p.capabilities := by
  induction calls generalizing p with
  | nil => rfl
  | cons g calls ih => rw [List.foldl_cons, List.foldl_cons, ih, capabilities_apply]

/-- All capabilities are held by superusers, and by those who are granted every name. -/
theorem capabilities_eq_all_iff {p : Profile} :
    p.capabilities = CapabilitySet.all ↔
      p.isSuperuser = true ∨ ∀ c : Capability, c.permission ∈ p.permissions := by
  constructor
  · intro h
    have hmem (c : Capability) : p.isSuperuser = true ∨ c.permission ∈ p.permissions := by
      rw [← mem_capabilities, h]
      exact CapabilitySet.mem_all c
    by_cases hsuper : p.isSuperuser = true
    · exact .inl hsuper
    · exact .inr fun c => (hmem c).resolve_left hsuper
  · intro h
    refine SortedSet.ext fun c => iff_of_true ?_ (CapabilitySet.mem_all c)
    exact mem_capabilities.mpr (h.imp_right fun hall => hall c)

end Profile

/-! ### Viewers -/

/-- **Capabilities resolve by name.**  A viewer holds a capability exactly if the viewer is a
user, and a superuser or granted the capability's very name.  A run of calls adds to a profile
the union of what the names of each call resolve to, where names that are no capability's count
for nothing.  All capabilities are what a superuser's names resolve to, whatever they are, and
so do the names of all capabilities. -/
theorem capabilities_resolve_by_name :
    (∀ (v : Viewer) (c : Capability), c ∈ v.capabilities ↔
      ∃ p, v = .authenticated p ∧ (p.isSuperuser = true ∨ c.permission ∈ p.permissions)) ∧
    (∀ (s : String) (c : Capability),
      Capability.ofPermission? s = some c ↔ s = c.permission) ∧
    (∀ (p : Profile) (calls : List Grant),
      (Viewer.authenticated (calls.foldl Grant.apply p)).capabilities =
        calls.foldl (fun held g => held.union (CapabilitySet.named g.added))
          (Viewer.authenticated p).capabilities) ∧
    (∀ (names : List String) (c : Capability),
      c ∈ CapabilitySet.named names ↔ c.permission ∈ names) ∧
    (∀ names : List String,
      CapabilitySet.named (names.filter fun s => (Capability.ofPermission? s).isSome) =
        CapabilitySet.named names) ∧
    (∀ cs : List Capability,
      CapabilitySet.named (cs.map Capability.permission) = SortedSet.ofList cs) ∧
    (∀ p : Profile, p.isSuperuser = true →
      (Viewer.authenticated p).capabilities = CapabilitySet.all) ∧
    (∀ p : Profile, (∀ c : Capability, c.permission ∈ p.permissions) →
      (Viewer.authenticated p).capabilities =
        (Viewer.authenticated p.makeSuperuser).capabilities) := by
  refine ⟨?_, fun _ _ => Capability.ofPermission?_eq_some_iff,
    Profile.capabilities_foldl_apply, fun _ _ => CapabilitySet.mem_named,
    CapabilitySet.named_filter, CapabilitySet.named_permissions, ?_, ?_⟩
  · intro v c
    cases v with
    | anonymous => simp [Viewer.capabilities]
    | authenticated p => simp [Viewer.capabilities, Profile.mem_capabilities]
  · intro p hsuper
    exact Profile.capabilities_eq_all_iff.mpr (.inl hsuper)
  · intro p hall
    have hsuper : p.makeSuperuser.capabilities = CapabilitySet.all :=
      Profile.capabilities_eq_all_iff.mpr (.inl rfl)
    exact (Profile.capabilities_eq_all_iff.mpr (.inr hall)).trans hsuper.symm

/-- Calls with names in the wrong case, with a blank before them, and of no capability. -/
def untidyCalls : List Grant :=
  [.names ["problem:edit_own", "contest:manage", "Problem:Rejudge"], .capabilities [.seeAll],
    .names [" solution:see_private", "", "problem:edit_own"]]

/-- A user to whom these calls and every name are granted. -/
def trustedProfile : Profile :=
  (untidyCalls.foldl Grant.apply { id := 2 }).grantCapabilities Capability.all

/-- The calls name two capabilities.  A superuser to whom they are granted holds all, and so does
the user to whom every name is granted. -/
theorem capabilities_resolve_by_name_untidy :
    (Viewer.authenticated (untidyCalls.foldl Grant.apply { id := 2 })).capabilities =
      SortedSet.ofList [.editOwn, .seeAll] ∧
    (Viewer.authenticated
      (untidyCalls.foldl Grant.apply { id := 3, isSuperuser := true })).capabilities =
        CapabilitySet.all ∧
    (Viewer.authenticated trustedProfile).capabilities =
      (Viewer.authenticated trustedProfile.makeSuperuser).capabilities := by
  obtain ⟨-, -, hrun, -, -, -, hsuper, hall⟩ := capabilities_resolve_by_name
  refine ⟨?_, hsuper _ rfl, hall _ fun c => ?_⟩
  · rw [hrun]
    decide
  · rw [trustedProfile, Profile.grantCapabilities, Profile.grantPermissions,
      SortedSet.mem_insertAll]
    exact .inr (List.mem_map_of_mem c.mem_all)

end JudgePolicy
