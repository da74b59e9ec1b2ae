/-
Profiles are read by the names of their fields, and never from ambiguous members.

* `Participation.IsReadFrom`, `Profile.IsReadFrom` — what the members of a record have to be for
  it to stand for the data;
* `Participation.ofJson?_eq_some_iff`, `Profile.ofJson?_eq_some_iff` — data is read exactly from
  these records, as objects or as arrays;
* `profiles_read_by_name` — so a field given twice is refused, whether or not the values agree,
  and neither the order of the members nor members with other names make a difference.

Design notes: a participation obeys the same law one level down, so both laws are about the
fields of a record, and what follows from reading by names is proved once for every reader.
-/
import JudgePolicy.Exchange.Profile
import JudgePolicy.Proofs.Json.Members
namespace JudgePolicy

open Json Json.Fields

/-- The value is a string that writes the instant. -/
def Instant.IsForm (j : Json) (t : Instant) : Prop :=
  ∃ s, j = .ofString s ∧ Timestamp.ofText? s = some t

theorem Instant.ofJson?_eq_some_iff {j : Json} {t : Instant} :
    Instant.ofJson? j = some t ↔ Instant.IsForm j t := by
  rw [ofJson?, Option.bind_eq_some_iff, IsForm]
  simp only [asText?_eq_some_iff]

/-! ### Participations -/

namespace Participation

/-- The members stand for the participation: its contest once, and an end at most once. -/
structure IsReadFrom (p : Participation) (fields : Fields) : Prop where
  contest : fields.Once "contest" (.ofId p.contest)
  endsAt : fields.Optionally "ends_at" Instant.IsForm p.endsAt

variable {p : Participation} {fields : Fields}

theorem ofFields?_eq_some_iff : ofFields? fields = some p ↔ p.IsReadFrom fields := by
  have hends {o : Option Instant} : fields.optional? "ends_at" Instant.ofJson? = some o ↔
      fields.Optionally "ends_at" Instant.IsForm o :=
    optional?_eq_some_iff Instant.ofJson?_eq_some_iff rfl
  rw [ofFields?]
  simp only [Option.bind_eq_bind, Option.bind_eq_some_iff, Option.pure_def, Option.some_inj,
    required?_eq_some_iff_once asInt32?_eq_some_iff, hends]
  constructor
  · rintro ⟨contest, hcontest, endsAt, hendsAt, rfl⟩
    exact ⟨hcontest, hendsAt⟩
  · intro h
    exact ⟨_, h.contest, _, h.endsAt, rfl⟩

theorem readsByName : ReadsByName fieldNames ofFields? where
  count_le_one h := by
    obtain ⟨hcontest, hends⟩ := ofFields?_eq_some_iff.mp h
    simp only [fieldNames, List.forall_mem_cons]
    exact ⟨hcontest.count_le_one, hends.count_le_one, List.forall_mem_nil _⟩
  of_covers h hcovers := by
    have hp := ofFields?_eq_some_iff.mp h
    exact ofFields?_eq_some_iff.mpr
      ⟨hcovers.once (by simp [fieldNames]) hp.contest,
        hcovers.optionally (by simp [fieldNames]) hp.endsAt⟩

theorem ofJson?_record (fields : Fields) :
    Participation.ofJson? (.record fields) = ofFields? fields := by
  rw [ofJson?, asRecord?_record, Option.bind_some]

/-- A participation is read exactly from the records that stand for it. -/
theorem ofJson?_eq_some_iff {j : Json} :
    Participation.ofJson? j = some p ↔ j.IsRecord fieldNames p.IsReadFrom := by
  rw [ofJson?, asRecord?_bind_eq_some_iff]
  simp only [ofFields?_eq_some_iff]

end Participation

/-! ### Profiles -/

namespace Profile

/-- The members stand for the profile: every field once, with a form of its data, and a
participation at most once. -/
structure IsReadFrom (p : Profile) (fields : Fields) : Prop where
  id : fields.Once "id" (.ofId p.id)
  username : fields.Once "username" (.ofString p.username)
  isSuperuser : fields.Once "is_superuser" (.bool p.isSuperuser)
  isStaff : fields.Once "is_staff" (.bool p.isStaff)
  isUnlisted : fields.Once "is_unlisted" (.bool p.isUnlisted)
  isBannedFromVoting : fields.Once "is_banned_from_problem_voting" (.bool p.isBannedFromVoting)
  permissions : ∃ names, fields.Once "permissions" (.ofStrings names) ∧
    ∀ name, name ∈ p.permissions ↔ name ∈ names
  organizations : ∃ ids, fields.Once "organizations" (.ofIds ids) ∧
    ∀ id, id ∈ p.organizations ↔ id ∈ ids
  administered : ∃ ids, fields.Once "administered_organizations" (.ofIds ids) ∧
    ∀ id, id ∈ p.administered ↔ id ∈ ids
  participation : fields.Optionally "current_contest"
    (fun j (q : Participation) => j.IsRecord Participation.fieldNames q.IsReadFrom)
    p.participation

variable {p : Profile} {fields fields' : Fields}

theorem ofFields?_eq_some_iff : ofFields? fields = some p ↔ p.IsReadFrom fields := by
  have hparticipation {o : Option Participation} :
      fields.optional? "current_contest" Participation.ofJson? = some o ↔
        fields.Optionally "current_contest"
          (fun j (q : Participation) => j.IsRecord Participation.fieldNames q.IsReadFrom) o :=
    optional?_eq_some_iff Participation.ofJson?_eq_some_iff rfl
  rw [ofFields?]
  simp only [Option.bind_eq_bind, Option.bind_eq_some_iff, Option.pure_def, Option.some_inj,
    required?_eq_some_iff_once asInt32?_eq_some_iff,
    required?_eq_some_iff_once asText?_eq_some_iff,
    required?_eq_some_iff_once asBool?_eq_some_iff,
    required?_asSet?_eq_some_iff asInt32?_eq_some_iff,
    required?_asSet?_eq_some_iff asText?_eq_some_iff, hparticipation]
  constructor
  · rintro ⟨id, hid, username, husername, isSuperuser, hsuperuser, isStaff, hstaff, isUnlisted,
      hunlisted, isBanned, hbanned, permissions, hpermissions, organizations, horganizations,
      administered, hadministered, participation, hcurrent, rfl⟩
    exact ⟨hid, husername, hsuperuser, hstaff, hunlisted, hbanned, hpermissions, horganizations,
      hadministered, hcurrent⟩
  · intro h
    exact ⟨_, h.id, _, h.username, _, h.isSuperuser, _, h.isStaff, _, h.isUnlisted, _,
      h.isBannedFromVoting, _, h.permissions, _, h.organizations, _, h.administered, _,
      h.participation, rfl⟩

theorem readsByName : ReadsByName fieldNames ofFields? where
  count_le_one h := by
    have hp := ofFields?_eq_some_iff.mp h
    obtain ⟨names, hpermissions, -⟩ := hp.permissions
    obtain ⟨ids, horganizations, -⟩ := hp.organizations
    obtain ⟨ids', hadministered, -⟩ := hp.administered
    simp only [fieldNames, List.forall_mem_cons]
    exact ⟨hp.id.count_le_one, hp.username.count_le_one, hp.isSuperuser.count_le_one,
      hp.isStaff.count_le_one, hp.isUnlisted.count_le_one, hp.isBannedFromVoting.count_le_one,
      hpermissions.count_le_one, horganizations.count_le_one, hadministered.count_le_one,
      hp.participation.count_le_one, List.forall_mem_nil _⟩
  of_covers h hcovers := by
    have hp := ofFields?_eq_some_iff.mp h
    obtain ⟨names, hpermissions, hnames⟩ := hp.permissions
    obtain ⟨ids, horganizations, hids⟩ := hp.organizations
    obtain ⟨ids', hadministered, hids'⟩ := hp.administered
    exact ofFields?_eq_some_iff.mpr
      { id := hcovers.once (by simp [fieldNames]) hp.id
        username := hcovers.once (by simp [fieldNames]) hp.username
        isSuperuser := hcovers.once (by simp [fieldNames]) hp.isSuperuser
        isStaff := hcovers.once (by simp [fieldNames]) hp.isStaff
        isUnlisted := hcovers.once (by simp [fieldNames]) hp.isUnlisted
        isBannedFromVoting := hcovers.once (by simp [fieldNames]) hp.isBannedFromVoting
        permissions := ⟨names, hcovers.once (by simp [fieldNames]) hpermissions, hnames⟩
        organizations := ⟨ids, hcovers.once (by simp [fieldNames]) horganizations, hids⟩
        administered := ⟨ids', hcovers.once (by simp [fieldNames]) hadministered, hids'⟩
        participation := hcovers.optionally (by simp [fieldNames]) hp.participation }

/-- A profile is read exactly from the records that stand for it. -/
theorem ofJson?_eq_some_iff {j : Json} :
    Profile.ofJson? j = some p ↔ j.IsRecord fieldNames p.IsReadFrom := by
  rw [ofJson?, asRecord?_bind_eq_some_iff]
  simp only [ofFields?_eq_some_iff]

theorem ofJson?_record (fields : Fields) : Profile.ofJson? (.record fields) = ofFields? fields := by
  rw [ofJson?, asRecord?_record, Option.bind_some]

theorem ofJson?_array (values : List Json) :
    Profile.ofJson? (.array values) =
      if values.length = 10 then ofFields? (fieldNames.zip values) else none := by
  rw [ofJson?, asRecord?]
  show (if values.length = 10 then some (fieldNames.zip values) else none).bind ofFields? = _
  split
  · exact Option.bind_some _ _
  · exact Option.bind_none _

theorem nodup_fieldNames : fieldNames.Nodup := by
  simp [fieldNames]

end Profile

/-! ### The laws of reading -/

/-- **Profiles are read by the names of their fields.**  An object is read as a profile exactly
if its members stand for it, and a participation obeys the same law: so every field has to occur
once, apart from the two that may be left out, and one that occurs twice is refused.  The order
of the members and members with other names have no effect.  An array is read as the object with
its values under the names, one for each; and to take the members one after another, and to stop
at a name that was there before, is the same as to look up each name. -/
theorem profiles_read_by_name :
    (∀ (fields : Fields) (p : Profile),
      Profile.ofJson? (.record fields) = some p ↔ p.IsReadFrom fields) ∧
    (∀ (j : Json) (q : Participation),
      Participation.ofJson? j = some q ↔ j.IsRecord Participation.fieldNames q.IsReadFrom) ∧
    (∀ fields : Fields, (∃ name ∈ Profile.fieldNames, 1 < (fields.map (·.1)).count name) →
      Profile.ofJson? (.record fields) = none) ∧
    (∀ fields fields' : Fields, fields.Perm fields' →
      Profile.ofJson? (.record fields') = Profile.ofJson? (.record fields) ∧
      Participation.ofJson? (.record fields') = Participation.ofJson? (.record fields)) ∧
    (∀ fields : Fields, Profile.ofJson? (.record (fields.known Profile.fieldNames)) =
      Profile.ofJson? (.record fields)) ∧
    (∀ values : List Json, Profile.ofJson? (.array values) =
      if values.length = 10 then Profile.ofJson? (.record (Profile.fieldNames.zip values))
      else none) ∧
    (∀ (fields : Fields) (p : Profile), Profile.ofJson? (.record fields) = some p →
      Profile.ofJson? (.array (fields.inOrder Profile.fieldNames)) = some p) ∧
    (∀ fields : Fields, (fields.gather? Profile.fieldNames).bind Profile.ofFields? =
      Profile.ofJson? (.record fields)) := by
  have hprofiles := Profile.readsByName
  have hparticipations := Participation.readsByName
  simp only [Profile.ofJson?_record, Participation.ofJson?_record]
  refine ⟨fun _ _ => Profile.ofFields?_eq_some_iff,
    fun _ _ => Participation.ofJson?_eq_some_iff, ?_,
    fun _ _ hperm => ⟨hprofiles.eq_of_perm hperm, hparticipations.eq_of_perm hperm⟩,
    hprofiles.eq_known, Profile.ofJson?_array, ?_, hprofiles.gather?_bind⟩
  · rintro fields ⟨name, hname, hcount⟩
    rw [Option.eq_none_iff_forall_ne_some]
    intro p hread
    have hone := hprofiles.count_le_one hread name hname
    omega
  · intro fields p hread
    exact hprofiles.asRecord?_inOrder Profile.nodup_fieldNames hread

/-- Members in no order, with one that no profile has, a set that repeats a name, and a
participation that is an array. -/
def scatteredFields : Fields :=
  [("permissions", .ofStrings ["b", "a", "b"]), ("current_contest", .array [.ofInt (-3), .null]),
    ("role", .null), ("is_staff", .bool true), ("id", .ofInt 7), ("organizations", .array []),
    ("is_superuser", .bool false), ("username", .ofString "ada"), ("is_unlisted", .bool false),
    ("administered_organizations", .ofIds [2, 1]), ("role", .bool true),
    ("is_banned_from_problem_voting", .bool false)]

def scatteredProfile : Profile where
  id := 7
  username := "ada"
  isStaff := true
  permissions := SortedSet.ofList ["a", "b"]
  administered := SortedSet.ofList [1, 2]
  participation := some ⟨-3, none⟩

/-- The members are read in this order, in the other one, and as an array; with a second
`is_superuser` they are refused. -/
theorem profiles_read_by_name_scattered :
    scatteredProfile.IsReadFrom scatteredFields ∧
    Profile.ofJson? (.record scatteredFields.reverse) = some scatteredProfile ∧
    Profile.ofJson? (.array (scatteredFields.inOrder Profile.fieldNames)) =
      some scatteredProfile ∧
    Profile.ofJson? (.record (("is_superuser", .bool false) :: scatteredFields)) = none := by
  obtain ⟨hlaw, -, htwice, hperm, -, -, hinOrder, -⟩ := profiles_read_by_name
  have hread : Profile.ofJson? (.record scatteredFields) = some scatteredProfile := by
    decide +kernel
  have hreverse := (hperm _ _ (List.reverse_perm scatteredFields)).1
  refine ⟨(hlaw _ _).mp hread, hreverse.symm.trans hread, hinOrder _ _ hread, htwice _ ?_⟩
  exact ⟨"is_superuser", by simp [Profile.fieldNames], by decide +kernel⟩

end JudgePolicy
