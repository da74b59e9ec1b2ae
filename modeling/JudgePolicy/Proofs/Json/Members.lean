/-
Records are read by the names of their members.

* `Fields.Covers` — one record gives every field that another one gives, in the same way;
* `IsRecord` — the two forms of a record: an object, and the array of all fields;
* `gather?_eq_some_iff` — members taken one after another, where a known name is refused the
  second time, are the known members of a record that has no known name twice;
* `ReadsByName` — a reader of fields that knows them by their names only: to it the order of the
  members, members with other names, and the choice of the form make no difference.

Design notes: the reader looks up each name in the whole record.  Collecting the members in one
pass is another way to read a record, and it comes to the same.
-/
import JudgePolicy.Proofs.Json.Fields
import Mathlib.Data.List.Nodup
namespace JudgePolicy

namespace Json

namespace Fields

variable {α : Type} {names : List String} {fields fields' : Fields} {name : String} {j : Json}

/-! ### Records that give the same fields -/

/-- Each of the names that the first record gives once is given once by the second, with the
same value; one that it leaves out may be given as `null`. -/
def Covers (names : List String) (fields fields' : Fields) : Prop :=
  ∀ name ∈ names,
    (∀ j, fields.Once name j → fields'.Once name j) ∧
    (fields.Absent name → fields'.Absent name ∨ fields'.Once name .null)

theorem Covers.once (h : Covers names fields fields') (hname : name ∈ names)
    (honce : fields.Once name j) : fields'.Once name j :=
  (h name hname).1 j honce

theorem Covers.optionally (h : Covers names fields fields') (hname : name ∈ names)
    {IsForm : Json → α → Prop} {o : Option α} (ho : fields.Optionally name IsForm o) :
    fields'.Optionally name IsForm o := by
  obtain ⟨honce, habsent⟩ := h name hname
  cases o with
  | none =>
    obtain hfield | hfield := ho
    · exact habsent hfield
    · exact .inr (honce _ hfield)
  | some a =>
    obtain ⟨j, hfield, hj⟩ := ho
    exact ⟨j, honce j hfield, hj⟩

/-- Counts and members decide which fields a record gives. -/
theorem Covers.of_count_mem
    (hcount : ∀ name ∈ names, (fields'.map (·.1)).count name = (fields.map (·.1)).count name)
    (hmem : ∀ name ∈ names, ∀ j, (name, j) ∈ fields → (name, j) ∈ fields') :
    Covers names fields fields' := by
  intro name hname
  constructor
  · rintro j ⟨hone, hj⟩
    exact ⟨(hcount name hname).trans hone, hmem name hname j hj⟩
  · intro habsent
    exact .inl ((hcount name hname).trans habsent)

theorem Covers.of_perm (h : fields.Perm fields') : Covers names fields fields' :=
  .of_count_mem (fun name _ => ((h.map _).count_eq name).symm) fun _ _ _ hj => h.mem_iff.mp hj

/-- The members with a known name. -/
def known (names : List String) (fields : Fields) : Fields :=
  fields.filter fun f => f.1 ∈ names

theorem mem_known {f : String × Json} : f ∈ known names fields ↔ f ∈ fields ∧ f.1 ∈ names := by
  simp [known]

theorem count_known (h : name ∈ names) :
    ((known names fields).map (·.1)).count name = (fields.map (·.1)).count name := by
  have hnames : (known names fields).map (·.1) = (fields.map (·.1)).filter (· ∈ names) := by
    rw [known, List.filter_map]
    rfl
  rw [hnames, List.count_filter (by simpa using h)]

theorem covers_known : Covers names fields (known names fields) :=
  .of_count_mem (fun _ hname => count_known hname) fun _ hname _ hj => mem_known.mpr ⟨hj, hname⟩

theorem known_covers : Covers names (known names fields) fields :=
  .of_count_mem (fun _ hname => (count_known hname).symm) fun _ _ _ hj => (mem_known.mp hj).1

/-- The value under a name, or `null` if there is none. -/
def valueOf (fields : Fields) (name : String) : Json := (fields.occurrences name).headD .null

/-- All fields in the order of the names. -/
def inOrder (names : List String) (fields : Fields) : List Json := names.map fields.valueOf

/-- A value for each name, in the order of the names, gives all fields. -/
theorem covers_inOrder (h : names.Nodup) :
    Covers names fields (names.zip (fields.inOrder names)) := by
  have hzip : names.zip (fields.inOrder names) = names.map fun n => (n, fields.valueOf n) := by
    rw [inOrder, List.map_prod_left_eq_zip]
  have hgiven (name : String) (hname : name ∈ names) :
      Once (names.zip (fields.inOrder names)) name (fields.valueOf name) := by
    rw [hzip, Once, List.map_map]
    refine ⟨?_, List.mem_map_of_mem hname⟩
    show (names.map id).count name = 1
    rw [List.map_id, h.count, if_pos hname]
  intro name hname
  constructor
  · intro j honce
    have hvalue : fields.valueOf name = j := by
      rw [valueOf, occurrences_eq_singleton_iff.mpr honce, List.headD_cons]
    exact hvalue ▸ hgiven name hname
  · intro habsent
    have hvalue : fields.valueOf name = .null := by
      rw [valueOf, occurrences_eq_nil_iff.mpr habsent, List.headD_nil]
    exact .inr (hvalue ▸ hgiven name hname)

/-! ### One member after another -/

/-- One more member: an unknown name is passed over, and a known one has to be new. -/
def put? (names : List String) (taken : Fields) (f : String × Json) : Option Fields :=
  if f.1 ∈ names then
    if f.1 ∈ taken.map (·.1) then none else some (taken ++ [f])
  else some taken

/-- The known members of an object, taken in one pass. -/
def gather? (names : List String) (fields : Fields) : Option Fields :=
  fields.foldlM (put? names) []

theorem known_cons (names : List String) (f : String × Json) (fields : Fields) :
    known names (f :: fields) =
      if f.1 ∈ names then f :: known names fields else known names fields := by
  rw [known, List.filter_cons]
  simp only [decide_eq_true_eq]
  rfl

/-- A step keeps the names apart, and stops where it cannot. -/
theorem put?_eq_some_iff {names : List String} {taken out : Fields} {f : String × Json}
    (h : (taken.map (·.1)).Nodup) :
    put? names taken f = some out ↔
      out = taken ++ known names [f] ∧ (out.map (·.1)).Nodup := by
  rw [put?, known_cons]
  by_cases hknown : f.1 ∈ names
  · rw [if_pos hknown, if_pos hknown]
    by_cases htaken : f.1 ∈ taken.map (·.1)
    · rw [if_pos htaken]
      refine iff_of_false (by simp) ?_
      rintro ⟨rfl, hnodup⟩
      rw [List.map_append, List.nodup_append] at hnodup
      exact hnodup.2.2 f.1 htaken f.1 (by simp) rfl
    · rw [if_neg htaken, Option.some_inj]
      constructor
      · rintro rfl
        refine ⟨rfl, ?_⟩
        rw [List.map_append, List.nodup_append]
        refine ⟨h, by simp, ?_⟩
        rintro x hx y hy rfl
        rw [List.map_singleton, List.mem_singleton] at hy
        exact htaken (hy ▸ hx)
      · rintro ⟨rfl, -⟩
        rfl
  · rw [if_neg hknown, if_neg hknown, Option.some_inj]
    constructor
    · rintro rfl
      exact ⟨(List.append_nil taken).symm, h⟩
    · rintro ⟨rfl, -⟩
      exact (List.append_nil taken).symm

/-- A run takes the known members, if all of its names are different. -/
theorem foldlM_put?_eq_some_iff {names : List String} {taken out : Fields}
    (h : (taken.map (·.1)).Nodup) :
    fields.foldlM (put? names) taken = some out ↔
      out = taken ++ known names fields ∧ (out.map (·.1)).Nodup := by
  induction fields generalizing taken with
  | nil =>
    show some taken = some out ↔ out = taken ++ [] ∧ _
    rw [List.append_nil, Option.some_inj]
    constructor
    · rintro rfl
      exact ⟨rfl, h⟩
    · rintro ⟨rfl, -⟩
      rfl
  | cons f fields ih =>
    have hsplit : known names (f :: fields) = known names [f] ++ known names fields := by
      rw [known, known, known, ← List.filter_append]
      rfl
    rw [List.foldlM_cons, Option.bind_eq_bind, Option.bind_eq_some_iff, hsplit,
      ← List.append_assoc]
    constructor
    · -- the names stay apart in every step, which is what the rest of the run needs
      rintro ⟨mid, hput, hrun⟩
      obtain ⟨rfl, hmid⟩ := (put?_eq_some_iff h).mp hput
      exact (ih hmid).mp hrun
    · rintro ⟨rfl, hnodup⟩
      have hmid : ((taken ++ known names [f]).map (·.1)).Nodup := by
        rw [List.map_append] at hnodup
        exact (List.nodup_append.mp hnodup).1
      exact ⟨_, (put?_eq_some_iff h).mpr ⟨rfl, hmid⟩, (ih hmid).mpr ⟨rfl, hnodup⟩⟩

/-- **One pass takes the known members**, unless a known name comes twice. -/
theorem gather?_eq_some_iff {names : List String} {out : Fields} :
    fields.gather? names = some out ↔
      out = known names fields ∧ (out.map (·.1)).Nodup := by
  have hrun : fields.foldlM (put? names) [] = some out ↔
      out = [] ++ known names fields ∧ (out.map (·.1)).Nodup :=
    foldlM_put?_eq_some_iff List.nodup_nil
  rwa [List.nil_append] at hrun

end Fields

/-! ### Objects and arrays -/

theorem namedMembers?_eq_some_iff {members : List (Option String × Json)} {fields : Fields} :
    namedMembers? members = some fields ↔ object members = record fields := by
  rw [namedMembers?, record, Json.object.injEq]
  refine mapM_eq_some_iff fun {m f} => ?_
  rw [Option.map_eq_some_iff]
  constructor
  · rintro ⟨name, hname, rfl⟩
    exact Prod.ext hname rfl
  · rintro rfl
    exact ⟨f.1, rfl, rfl⟩

/-- An object whose members obey a law, or the array of all fields in the order of their
names. -/
inductive IsRecord (names : List String) (Law : Fields → Prop) : Json → Prop where
  | object {fields : Fields} (h : Law fields) : IsRecord names Law (record fields)
  | array {values : List Json} (hlength : values.length = names.length)
      (h : Law (names.zip values)) : IsRecord names Law (.array values)

theorem asRecord?_bind_eq_some_iff {α : Type} {ofFields? : Fields → Option α}
    {names : List String} {j : Json} {a : α} :
    (asRecord? names j).bind ofFields? = some a ↔
      IsRecord names (fun fields => ofFields? fields = some a) j := by
  rw [Option.bind_eq_some_iff]
  constructor
  · rintro ⟨fields, hfields, hread⟩
    cases j with
    | object members =>
      rw [namedMembers?_eq_some_iff.mp hfields]
      exact .object hread
    | array values =>
      rw [asRecord?] at hfields
      split at hfields
      · next hlength =>
        obtain rfl := Option.some.inj hfields
        exact .array hlength hread
      · cases hfields
    | _ => cases hfields
  · intro h
    cases h with
    | object hread => exact ⟨_, asRecord?_record names _, hread⟩
    | array hlength hread => exact ⟨_, if_pos hlength, hread⟩

/-! ### Readers of fields -/

open Fields

/-- The reader accepts no record with one of the names twice, and what it reads from a record it
also reads from every other record that gives these fields. -/
structure ReadsByName {α : Type} (names : List String) (ofFields? : Fields → Option α) :
    Prop where
  count_le_one : ∀ {fields : Fields} {a : α}, ofFields? fields = some a →
    ∀ name ∈ names, (fields.map (·.1)).count name ≤ 1
  of_covers : ∀ {fields fields' : Fields} {a : α}, ofFields? fields = some a →
    Covers names fields fields' → ofFields? fields' = some a

namespace ReadsByName

variable {α : Type} {names : List String} {ofFields? : Fields → Option α}
  {fields fields' : Fields}

theorem eq_of_covers (h : ReadsByName names ofFields?) (hto : Covers names fields fields')
    (hback : Covers names fields' fields) : ofFields? fields' = ofFields? fields :=
  Option.ext fun _ => ⟨fun ha => h.of_covers ha hback, fun ha => h.of_covers ha hto⟩

/-- The order of the members makes no difference. -/
theorem eq_of_perm (h : ReadsByName names ofFields?) (hperm : fields.Perm fields') :
    ofFields? fields' = ofFields? fields :=
  h.eq_of_covers (.of_perm hperm) (.of_perm hperm.symm)

/-- Members with other names make no difference. -/
theorem eq_known (h : ReadsByName names ofFields?) (fields : Fields) :
    ofFields? (known names fields) = ofFields? fields :=
  h.eq_of_covers covers_known known_covers

/-- One pass over the members reads the record. -/
theorem gather?_bind (h : ReadsByName names ofFields?) (fields : Fields) :
    (fields.gather? names).bind ofFields? = ofFields? fields := by
  refine Option.ext fun a => ?_
  rw [Option.bind_eq_some_iff]
  constructor
  · rintro ⟨out, hgather, hread⟩
    obtain ⟨rfl, -⟩ := gather?_eq_some_iff.mp hgather
    rwa [h.eq_known] at hread
  · intro hread
    -- no name is refused on the way, as a record that is read has none of them twice
    have hnodup : ((known names fields).map (·.1)).Nodup := by
      refine List.nodup_iff_count_le_one.mpr fun name => ?_
      by_cases hname : name ∈ names
      · rw [count_known hname]
        exact h.count_le_one hread name hname
      · rw [List.count_eq_zero.mpr]
        · exact Nat.zero_le 1
        · intro hmem
          obtain ⟨f, hf, rfl⟩ := List.mem_map.mp hmem
          exact hname (mem_known.mp hf).2
    refine ⟨_, gather?_eq_some_iff.mpr ⟨rfl, hnodup⟩, ?_⟩
    rwa [h.eq_known]

/-- The array of all values, in the order of the names, is read as the object is. -/
theorem asRecord?_inOrder (h : ReadsByName names ofFields?) (hnames : names.Nodup) {a : α}
    (hread : ofFields? fields = some a) :
    (asRecord? names (array (fields.inOrder names))).bind ofFields? = some a := by
  have hlength : (fields.inOrder names).length = names.length := List.length_map _
  rw [asRecord?, if_pos hlength, Option.bind_some]
  exact h.of_covers hread (covers_inOrder hnames)

end ReadsByName

end Json

end JudgePolicy
