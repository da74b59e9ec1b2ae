/-
Inquiries stop at the first lookup that fails.

Each inquiry goes through its *stages*: lookups in a fixed order, each of which may end
the inquiry because the store reports an error or because nothing was found.

* `Inquiry.Follows` — the first stage that ends an inquiry decides how it ends, and no
  later lookup is made; without one, all lookups are made and the answer is as said;
* `Follows.answers_iff` — so there is an answer exactly if no stage ends the inquiry;
* `Follows.bind` — the stages of two steps are those of the first and then those of the
  second;
* `inquiries_follow_their_stages` — what the stages of each inquiry are, and that the
  answer is the decision about what was found.

Design notes: which lookups come later may depend on what earlier ones found, so the
stages are read off the store.  That costs nothing, since behind a lookup that found
nothing no stage matters any more.
-/
import JudgePolicy.Inquiry
import JudgePolicy.Proofs.Access.Noninterference
import JudgePolicy.Store.Memory
namespace JudgePolicy

/-- A lookup of an inquiry, and the failure that ends the inquiry there, if any. -/
structure Stage where
  lookup : Lookup
  failure : Option Failure

namespace Stage

variable {α : Type}

/-- A lookup that always finds something, unless the store reports an error. -/
def plain (l : Lookup) (answer : Except StoreError α) : Stage where
  lookup := l
  failure :=
    match answer with
    | .error e => some (.store e)
    | .ok _ => none

/-- A lookup of something that may be missing. -/
def search (l : Lookup) (missing : Missing) (answer : Except StoreError (Option α)) : Stage where
  lookup := l
  failure :=
    match answer with
    | .error e => some (.store e)
    | .ok none => some (.notFound missing)
    | .ok (some _) => none

end Stage

/-! ### Following stages -/

namespace Inquiry

variable {α β : Type}

/-- The inquiry goes through the stages in their order.  It ends with the failure of the
first one that has any, without any later lookup, or else with an answer as described. -/
structure Follows (x : Inquiry α) (stages : List Stage) (answer : α → Prop) : Prop where
  stopped : ∀ (before : List Stage) (stage : Stage) (after : List Stage) (failure : Failure),
    stages = before ++ stage :: after → (∀ b ∈ before, b.failure = none) →
      stage.failure = some failure →
        x.result = .error failure ∧ x.lookups = (before ++ [stage]).map (·.lookup)
  answered : (∀ stage ∈ stages, stage.failure = none) →
    x.lookups = stages.map (·.lookup) ∧ ∃ a, x.result = .ok a ∧ answer a

namespace Follows

variable {x : Inquiry α} {f : α → Inquiry β} {l m : List Stage} {stage : Stage}
  {P : α → Prop} {R : β → Prop}

/-- There is an answer exactly if no stage ends the inquiry. -/
theorem answers_iff (h : x.Follows l P) :
    (∃ a, x.result = .ok a) ↔ ∀ stage ∈ l, stage.failure = none := by
  constructor
  · rintro ⟨a, ha⟩
    cases hfind : l.find? fun stage => stage.failure.isSome with
    | none => simpa using hfind
    | some stage =>
      -- This stage would have ended the inquiry.
      obtain ⟨hstage, before, after, rfl, hbefore⟩ := List.find?_eq_some_iff_append.mp hfind
      obtain ⟨failure, hfailure⟩ := Option.isSome_iff_exists.mp hstage
      have hnone : ∀ b ∈ before, b.failure = none := by simpa using hbefore
      have hresult := (h.stopped before stage after failure rfl hnone hfailure).1
      rw [ha] at hresult
      cases hresult
  · intro hnone
    obtain ⟨-, a, ha, -⟩ := h.answered hnone
    exact ⟨a, ha⟩

/-- An answer without any lookup. -/
theorem of_ok {a : α} (hlookups : x.lookups = []) (hresult : x.result = .ok a) (ha : P a) :
    x.Follows [] P := by
  refine ⟨?_, fun _ => ⟨hlookups, a, hresult, ha⟩⟩
  intro before stage after failure heq
  exact absurd heq.symm (by simp)

/-- A single lookup. -/
theorem of_stage (hlookups : x.lookups = [stage.lookup])
    (hfailure : ∀ failure, stage.failure = some failure → x.result = .error failure)
    (hanswer : stage.failure = none → ∃ a, x.result = .ok a ∧ P a) : x.Follows [stage] P := by
  refine ⟨?_, fun hnone => ⟨hlookups, hanswer (hnone stage List.mem_cons_self)⟩⟩
  intro before stage' after failure heq _ hstage
  cases before with
  | nil =>
    obtain ⟨rfl, -⟩ := List.cons.inj heq
    exact ⟨hfailure failure hstage, hlookups⟩
  | cons b rest => exact absurd heq (by simp)

/-- **Steps one after the other.**  An inquiry in two steps follows the stages of the
first step and then those that the second one follows on every answer of the first. -/
theorem bind (hx : x.Follows l P) (hf : ∀ a, P a → (f a).Follows m R) :
    (x >>= f).Follows (l ++ m) R := by
  constructor
  · intro before stage after failure heq hbefore hstage
    obtain ⟨rest, rfl, hm⟩ | ⟨rest, hl, hrest⟩ := List.append_eq_append_iff.mp heq
    · -- The first step is through, and the second one is stopped.
      obtain ⟨hlookups, a, ha, hP⟩ :=
        hx.answered fun b hb => hbefore b (List.mem_append_left rest hb)
      obtain ⟨hresult, hlater⟩ := (hf a hP).stopped rest stage after failure hm
        (fun b hb => hbefore b (List.mem_append_right l hb)) hstage
      rw [bind_of_ok ha]
      refine ⟨hresult, ?_⟩
      show x.lookups ++ (f a).lookups = _
      rw [hlookups, hlater, ← List.map_append, List.append_assoc]
    · cases rest with
      | nil =>
        -- The stage that stops is the first one of the second step.
        rw [List.append_nil] at hl
        subst hl
        obtain ⟨hlookups, a, ha, hP⟩ := hx.answered hbefore
        obtain ⟨hresult, hlater⟩ := (hf a hP).stopped [] stage after failure hrest.symm
          (fun b hb => absurd hb List.not_mem_nil) hstage
        rw [bind_of_ok ha]
        refine ⟨hresult, ?_⟩
        show x.lookups ++ (f a).lookups = _
        rw [hlookups, hlater, ← List.map_append, List.nil_append]
      | cons c rest =>
        -- The first step is stopped already.
        obtain ⟨rfl, -⟩ := List.cons.inj hrest
        obtain ⟨hresult, hlookups⟩ := hx.stopped before stage rest failure hl hbefore hstage
        rw [bind_of_error hresult]
        exact ⟨rfl, hlookups⟩
  · intro hnone
    rw [List.forall_mem_append] at hnone
    obtain ⟨hlookups, a, ha, hP⟩ := hx.answered hnone.1
    obtain ⟨hlater, b, hb, hR⟩ := (hf a hP).answered hnone.2
    rw [bind_of_ok ha]
    refine ⟨?_, b, hb, hR⟩
    show x.lookups ++ (f a).lookups = _
    rw [hlookups, hlater, List.map_append]

/-- A last step without any lookup. -/
theorem finish (hx : x.Follows l P)
    (hf : ∀ a, P a → ∃ b, (f a).lookups = [] ∧ (f a).result = .ok b ∧ R b) :
    (x >>= f).Follows l R := by
  have hlast : ∀ a, P a → (f a).Follows [] R := by
    intro a hP
    obtain ⟨b, hlookups, hresult, hR⟩ := hf a hP
    exact .of_ok hlookups hresult hR
  rw [← List.append_nil l]
  exact hx.bind hlast

end Follows

theorem follows_look (lookup : Lookup) (answer : Except StoreError α) :
    (look lookup answer).Follows [.plain lookup answer] fun a => answer = .ok a := by
  cases answer with
  | error e => exact .of_stage rfl (fun failure h => Option.some.inj h ▸ rfl) nofun
  | ok a => exact .of_stage rfl nofun fun _ => ⟨a, rfl, rfl⟩

/-- Looking something up and requiring it to be there is one stage. -/
theorem follows_search (lookup : Lookup) (missing : Missing)
    (answer : Except StoreError (Option α)) :
    (look lookup answer >>= require missing).Follows [.search lookup missing answer]
      fun a => answer = .ok (some a) := by
  cases answer with
  | error e => exact .of_stage rfl (fun failure h => Option.some.inj h ▸ rfl) nofun
  | ok found =>
    cases found with
    | none => exact .of_stage rfl (fun failure h => Option.some.inj h ▸ rfl) nofun
    | some a => exact .of_stage rfl nofun fun _ => ⟨a, rfl, rfl⟩

theorem follows_decided (x : Audited α) : (decided x).Follows [] fun a => a = x.value :=
  .of_ok rfl rfl rfl

end Inquiry

/-- Stages that ask about something found before; if it was not found, the inquiry has
ended by then. -/
def Stage.onFound {α : Type} (found : Except StoreError (Option α)) (stages : α → List Stage) :
    List Stage :=
  match found with
  | .ok (some a) => stages a
  | _ => []

namespace Store

open Inquiry

variable (s : Store)

/-! ### What is looked up -/

def problemStage (code : String) : Stage :=
  .search (.problem code) (.problem code) (s.problem code)

def editorialStage (code : String) : Stage :=
  .search (.editorial code) (.editorial code) (s.editorial code)

/-- Nothing is looked up about the anonymous viewer. -/
def profileStages : Option ProfileId → List Stage
  | none => []
  | some id => [.search (.profile id) (.profile id) (s.profile id)]

def adminStages (os : List OrganizationId) : List Stage :=
  os.map fun o => .plain (.admins o) (s.admins o)

/-- The record asked for is that of the profile found, whatever its identifier. -/
def historyStages (p : Problem) : Option ProfileId → List Stage
  | none => []
  | some id => Stage.onFound (s.profile id) fun u =>
      [.plain (.history u.id p.code) (s.history u.id p)]

/-- The organizations of a problem matter to an authenticated viewer only. -/
def affiliationStages (p : Problem) : Option ProfileId → List Stage
  | none => []
  | some _ => s.adminStages p.organizations.toList

def accessStages (id : Option ProfileId) (code : String) : List Stage :=
  s.problemStage code ::
    (s.profileStages id ++ Stage.onFound (s.problem code) fun p => s.affiliationStages p id)

def votingStages (id : Option ProfileId) (code : String) : List Stage :=
  s.problemStage code ::
    (s.profileStages id ++ Stage.onFound (s.problem code) fun p => s.historyStages p id)

def readingStages (id : Option ProfileId) (code : String) : List Stage :=
  s.editorialStage code :: s.profileStages id

def listStages (id : Option ProfileId) : List Stage :=
  s.profileStages id ++ [.plain .problems s.problems]

/-! ### What was found -/

/-- Whom an identifier stands for in the store. -/
def Identifies : Option ProfileId → Viewer → Prop
  | none, v => v = .anonymous
  | some id, v => ∃ u, s.profile id = .ok (some u) ∧ v = .authenticated u

/-- Whether the store has a profile among the administrators of an organization. -/
def administers (id : ProfileId) (o : OrganizationId) : Bool :=
  match s.admins o with
  | .ok ids => decide (id ∈ ids)
  | .error _ => false

/-- A profile with those of some organizations added that it administers. -/
def knowing (os : List OrganizationId) (u : Profile) : Profile :=
  { u with administered := u.administered.insertAll (os.filter (s.administers u.id)) }

/-- A viewer that knows which of a problem's organizations it administers. -/
def knowingFor (p : Problem) : Viewer → Viewer
  | .anonymous => .anonymous
  | .authenticated u => .authenticated (s.knowing p.organizations.toList u)

/-- The store has this record of a viewer; nobody's record is unsolved. -/
def Records (p : Problem) : Viewer → History → Prop
  | .anonymous, h => h = .unsolved
  | .authenticated u, h => s.history u.id p = .ok h

/-! ### The steps of the inquiries -/

theorem follows_problemNamed (code : String) :
    (s.problemNamed code).Follows [s.problemStage code] fun p => s.problem code = .ok (some p) :=
  follows_search (.problem code) (.problem code) (s.problem code)

theorem follows_editorialOf (code : String) :
    (s.editorialOf code).Follows [s.editorialStage code]
      fun e => s.editorial code = .ok (some e) :=
  follows_search (.editorial code) (.editorial code) (s.editorial code)

theorem follows_viewer (id : Option ProfileId) :
    (s.viewer id).Follows (s.profileStages id) (s.Identifies id) := by
  cases id with
  | none => exact .of_ok rfl rfl rfl
  | some id =>
    rw [viewer, ← Inquiry.bind_assoc]
    refine (follows_search (.profile id) (.profile id) (s.profile id)).finish fun u hu => ?_
    exact ⟨.authenticated u, rfl, rfl, u, hu, rfl⟩

theorem knowing_cons {o : OrganizationId} {ids : SortedSet ProfileId}
    (ho : s.admins o = .ok ids) (rest : List OrganizationId) (u : Profile) :
    s.knowing (o :: rest) u =
      s.knowing rest
        (if u.id ∈ ids then { u with administered := u.administered.insert o } else u) := by
  have hadministers : s.administers u.id o = decide (u.id ∈ ids) := by
    rw [administers, ho]
  by_cases hmem : u.id ∈ ids
  · rw [if_pos hmem, knowing, List.filter_cons_of_pos (by simp [hadministers, hmem])]
    rfl
  · rw [if_neg hmem, knowing, List.filter_cons_of_neg (by simp [hadministers, hmem])]
    rfl

/-- Administrators are looked up organization by organization. -/
theorem follows_withAdministered (os : List OrganizationId) (u : Profile) :
    (s.withAdministered os u).Follows (s.adminStages os) fun w => w = s.knowing os u := by
  induction os generalizing u with
  | nil => exact .of_ok rfl rfl rfl
  | cons o rest ih =>
    refine (follows_look (.admins o) (s.admins o)).bind fun ids hids => ?_
    rw [s.knowing_cons hids]
    exact ih _

theorem follows_viewerFor (p : Problem) (id : Option ProfileId) :
    (s.viewerFor id p).Follows (s.profileStages id ++ s.affiliationStages p id)
      fun w => ∃ v, s.Identifies id v ∧ w = s.knowingFor p v := by
  refine (s.follows_viewer id).bind fun v hv => ?_
  cases id with
  | none =>
    subst hv
    exact .of_ok rfl rfl ⟨.anonymous, rfl, rfl⟩
  | some id =>
    obtain ⟨u, hu, rfl⟩ := hv
    refine (s.follows_withAdministered p.organizations.toList u).finish fun w hw => ?_
    exact ⟨.authenticated w, rfl, rfl, .authenticated u, ⟨u, hu, rfl⟩, hw ▸ rfl⟩

theorem follows_historyOf (p : Problem) {id : Option ProfileId} {v : Viewer}
    (hv : s.Identifies id v) :
    (s.historyOf v p).Follows (s.historyStages p id) (s.Records p v) := by
  cases id with
  | none =>
    subst hv
    exact .of_ok rfl rfl rfl
  | some id =>
    obtain ⟨u, hu, rfl⟩ := hv
    rw [historyStages, hu]
    exact follows_look (.history u.id p.code) (s.history u.id p)

theorem follows_problemsUnder (r : Rule) (id : Option ProfileId) :
    (s.problemsUnder r id).Follows (s.listStages id)
      fun l => ∃ v ps, s.Identifies id v ∧ s.problems = .ok ps ∧ l = (v.filter r).select ps := by
  refine (s.follows_viewer id).bind fun v hv => ?_
  refine (follows_decided (Audit.filter v r)).bind fun f hf => ?_
  refine (follows_look .problems s.problems).finish fun ps hps => ?_
  exact ⟨f.select ps, rfl, rfl, v, ps, hv, hps, hf ▸ rfl⟩

end Store

/-- **Inquiries stop at the first lookup that fails.**  For every store, the inquiries
follow these stages, and without a failing one they answer with the decision about what
was found. -/
theorem inquiries_follow_their_stages (s : Store) (id : Option ProfileId) (code : String)
    (now : Instant) :
    (s.problemAccess id code).Follows (s.accessStages id code)
      (fun access => ∃ p v, s.problem code = .ok (some p) ∧ s.Identifies id v ∧
        access = (s.knowingFor p v).accessTo p) ∧
    (s.votePermission now id code).Follows (s.votingStages id code)
      (fun decision => ∃ p v h, s.problem code = .ok (some p) ∧ s.Identifies id v ∧
        s.Records p v h ∧ decision = v.votingOn p h now) ∧
    (s.editorialAccess now id code).Follows (s.readingStages id code)
      (fun readable => ∃ e v, s.editorial code = .ok (some e) ∧ s.Identifies id v ∧
        readable = v.canRead e now) ∧
    (s.visibleProblems id).Follows (s.listStages id)
      (fun l => ∃ v ps, s.Identifies id v ∧ s.problems = .ok ps ∧ l = v.visible.select ps) ∧
    (s.editableProblems id).Follows (s.listStages id)
      (fun l => ∃ v ps, s.Identifies id v ∧ s.problems = .ok ps ∧ l = v.editable.select ps) := by
  refine ⟨?access, ?voting, ?reading, s.follows_problemsUnder .visibility id,
    s.follows_problemsUnder .edit id⟩
  case access =>
    refine (s.follows_problemNamed code).bind fun p hp => ?_
    -- Past the first stage the problem is known, and the other stages are about it.
    rw [hp]
    refine (s.follows_viewerFor p id).finish fun w hw => ?_
    obtain ⟨v, hv, rfl⟩ := hw
    exact ⟨_, rfl, rfl, p, v, rfl, hv, rfl⟩
  case voting =>
    refine (s.follows_problemNamed code).bind fun p hp => ?_
    rw [hp]
    refine (s.follows_viewer id).bind fun v hv => ?_
    refine (s.follows_historyOf p hv).finish fun h hh => ?_
    exact ⟨_, rfl, rfl, p, v, h, rfl, hv, hh, rfl⟩
  case reading =>
    refine (s.follows_editorialOf code).bind fun e he => ?_
    refine (s.follows_viewer id).finish fun v hv => ?_
    exact ⟨_, rfl, rfl, e, v, he, hv, Audit.value_canRead v e now⟩

/-- `sharedProblem` of three organizations, in a store that cannot tell who administers
the second one. -/
def brokenStore : Store :=
  (MemoryStore.empty.addAll [
      .problem { sharedProblem with organizations := SortedSet.ofList [7, 5, 6] },
      .profile rootProfile]).toStore.withFaults
    [⟨"admins 6", .unavailable "down"⟩]

/-- The failure ends the inquiry of a superuser, and the third organization is not asked
about; it is in nobody else's way. -/
theorem inquiries_follow_their_stages_broken :
    (brokenStore.problemAccess (some 7) "shared").result =
      .error (.store (.unavailable "down")) ∧
    (brokenStore.problemAccess (some 7) "shared").lookups =
      [.problem "shared", .profile 7, .admins 5, .admins 6] ∧
    (brokenStore.problemAccess (some 8) "shared").result = .error (.notFound (.profile 8)) ∧
    (brokenStore.problemAccess (some 8) "shared").lookups = [.problem "shared", .profile 8] ∧
    ∃ access, (brokenStore.problemAccess none "shared").result = .ok access := by
  have follows := fun id =>
    (inquiries_follow_their_stages brokenStore id "shared" ⟨0, 0, by decide⟩).1
  obtain ⟨hroot, hrootLookups⟩ := (follows (some 7)).stopped
    [brokenStore.problemStage "shared", .search (.profile 7) (.profile 7) (brokenStore.profile 7),
      .plain (.admins 5) (brokenStore.admins 5)]
    (.plain (.admins 6) (brokenStore.admins 6)) [.plain (.admins 7) (brokenStore.admins 7)]
    (.store (.unavailable "down")) (by rfl) (by decide) (by rfl)
  obtain ⟨hunknown, hunknownLookups⟩ := (follows (some 8)).stopped
    [brokenStore.problemStage "shared"]
    (.search (.profile 8) (.profile 8) (brokenStore.profile 8))
    (brokenStore.adminStages [5, 6, 7])
    (.notFound (.profile 8)) (by rfl) (by decide) (by rfl)
  have hnobody : ∀ stage ∈ brokenStore.accessStages none "shared", stage.failure = none := by
    decide
  exact ⟨hroot, hrootLookups, hunknown, hunknownLookups, (follows none).answers_iff.mpr hnobody⟩

end JudgePolicy
