/-
What the fields of a record say.

* `asInt32?_eq_some_iff`, `asSet?_eq_some_iff`, … — a value is read as data exactly if it is a
  form of that data;
* `Fields.Once`, `Fields.Absent` — a name that occurs exactly once, and one that does not occur;
* `required?_eq_some_iff`, `optional?_eq_some_iff` — a field is read from these facts alone.

Design notes: integers are read only from numerals that are written as integers, and such a
numeral is its sign and its digits, so each integer has one form.  A set has many: any list of
its elements.
-/
import JudgePolicy.Proofs.Json.Records
namespace JudgePolicy

namespace Json

/-! ### Values -/

section Values

variable {α : Type} {encode : α → Json} {decode? : Json → Option α} {j : Json}

theorem asBool?_eq_some_iff {b : Bool} : j.asBool? = some b ↔ j = .bool b := by
  cases j with
  | bool c => simp [asBool?]
  | _ => simp [asBool?]

theorem asText?_eq_some_iff {s : String} : j.asText? = some s ↔ j = ofString s := by
  cases j with
  | text t => simp [asText?, ofString]
  | _ => simp [asText?, ofString]

theorem toInt?_eq_some_iff {n : Numeral} {i : Int} : n.toInt? = some i ↔ n = Numeral.ofInt i := by
  constructor
  · intro h
    obtain ⟨negative, whole, fraction, exponent⟩ := n
    rw [Numeral.toInt?] at h
    split at h
    · next hplain =>
      obtain ⟨hfraction, hexponent, hzero⟩ := hplain
      have hi := Option.some.inj h
      dsimp only at hfraction hexponent hzero hi
      subst hfraction hexponent
      rw [Numeral.ofInt, Numeral.mk.injEq]
      cases negative with
      | true =>
        rw [if_pos rfl] at hi
        -- a zero with a sign is no integer, so the sign is the integer's own
        have hwhole : whole ≠ 0 := fun h => hzero ⟨rfl, h⟩
        refine ⟨(decide_eq_true ?_).symm, ?_, rfl, rfl⟩
        · omega
        · omega
      | false =>
        rw [if_neg Bool.false_ne_true] at hi
        refine ⟨(decide_eq_false ?_).symm, ?_, rfl, rfl⟩
        · omega
        · omega
    · cases h
  · rintro rfl
    exact toInt?_ofInt i

theorem asInt32?_eq_some_iff {id : Int32} : j.asInt32? = some id ↔ j = ofId id := by
  constructor
  · intro h
    cases j with
    | number n =>
      obtain ⟨i, hi, hrange⟩ := Option.bind_eq_some_iff.mp h
      split at hrange
      · next hbounds =>
        -- within the bounds nothing wraps around
        have hid : Int32.ofInt i = id := Option.some.inj hrange
        have hback : id.toInt = i := by
          rw [← hid]
          exact Int32.toInt_ofInt_of_le hbounds.1 (Int.lt_add_one_of_le hbounds.2)
        rw [ofId, hback, ofInt, ← toInt?_eq_some_iff.mp hi]
      · cases hrange
    | _ => cases h
  · rintro rfl
    exact asInt32?_ofId id

/-- A list is read exactly as the list of what its elements are forms of. -/
theorem mapM_eq_some_iff {β : Type} {read? : β → Option α} {form : α → β}
    (h : ∀ {b : β} {a : α}, read? b = some a ↔ b = form a) {bs : List β} {l : List α} :
    bs.mapM read? = some l ↔ bs = l.map form := by
  induction bs generalizing l with
  | nil =>
    rw [List.mapM_nil, Option.pure_def, Option.some_inj, eq_comm, List.nil_eq, List.map_eq_nil_iff]
  | cons b rest ih =>
    rw [List.mapM_cons, Option.bind_eq_bind, Option.bind_eq_some_iff]
    constructor
    · rintro ⟨a, ha, hrest⟩
      obtain ⟨as, has, hl⟩ := Option.bind_eq_some_iff.mp hrest
      obtain rfl := Option.some.inj hl
      rw [List.map_cons, ← h.mp ha, ← ih.mp has]
    · intro hforms
      cases l with
      | nil => cases hforms
      | cons a as =>
        obtain ⟨hb, hrest⟩ := List.cons.inj hforms
        refine ⟨a, h.mpr hb, ?_⟩
        rw [ih.mpr hrest]
        rfl

theorem asList?_eq_some_iff (h : ∀ {j : Json} {a : α}, decode? j = some a ↔ j = encode a)
    {l : List α} : asList? decode? j = some l ↔ j = array (l.map encode) := by
  cases j with
  | array elements => rw [asList?, mapM_eq_some_iff h, Json.array.injEq]
  | _ => simp [asList?]

/-- A set is read from any list of its elements. -/
theorem asSet?_eq_some_iff [Ord α] [Std.TransOrd α] [Std.LawfulEqOrd α]
    (h : ∀ {j : Json} {a : α}, decode? j = some a ↔ j = encode a) {s : SortedSet α} :
    asSet? decode? j = some s ↔
      ∃ l : List α, j = array (l.map encode) ∧ ∀ a, a ∈ s ↔ a ∈ l := by
  rw [asSet?, Option.map_eq_some_iff]
  constructor
  · rintro ⟨l, hread, rfl⟩
    exact ⟨l, (asList?_eq_some_iff h).mp hread, fun a => SortedSet.mem_ofList⟩
  · rintro ⟨l, hj, hmem⟩
    refine ⟨l, (asList?_eq_some_iff h).mpr hj, SortedSet.ext fun a => ?_⟩
    rw [SortedSet.mem_ofList, hmem]

/-- What may be `null` is read from `null`, or else from a value. -/
theorem asNullable?_eq_some_iff {value? : Json → Option α} {o : Option α} :
    asNullable? value? j = some o ↔
      (j = .null ∧ o = none) ∨ (j ≠ .null ∧ ∃ a, o = some a ∧ value? j = some a) := by
  cases j with
  | null => simp [asNullable?, eq_comm]
  | _ =>
    rw [asNullable?, Option.map_eq_some_iff]
    · simp [and_comm, eq_comm]
    · simp

end Values

namespace Fields

variable {α : Type} {fields : Fields} {name : String} {j : Json}

/-! ### Occurrences -/

/-- The name occurs exactly once, and with this value. -/
def Once (fields : Fields) (name : String) (j : Json) : Prop :=
  (fields.map (·.1)).count name = 1 ∧ (name, j) ∈ fields

/-- The name does not occur. -/
def Absent (fields : Fields) (name : String) : Prop := (fields.map (·.1)).count name = 0

theorem length_occurrences (fields : Fields) (name : String) :
    (fields.occurrences name).length = (fields.map (·.1)).count name := by
  rw [occurrences, List.length_map, ← List.countP_eq_length_filter, List.count, List.countP_map]
  rfl

theorem mem_occurrences : j ∈ fields.occurrences name ↔ (name, j) ∈ fields := by
  simp [occurrences]

theorem occurrences_eq_nil_iff : fields.occurrences name = [] ↔ fields.Absent name := by
  rw [Absent, ← length_occurrences, List.length_eq_zero_iff]

theorem occurrences_eq_singleton_iff : fields.occurrences name = [j] ↔ fields.Once name j := by
  rw [Once, ← length_occurrences, ← mem_occurrences]
  constructor
  · intro h
    rw [h]
    exact ⟨rfl, List.mem_singleton_self j⟩
  · rintro ⟨hlength, hmem⟩
    obtain ⟨i, hi⟩ := List.length_eq_one_iff.mp hlength
    rw [hi, List.mem_singleton] at hmem
    rw [hi, hmem]

theorem Once.unique {i : Json} (hi : fields.Once name i) (hj : fields.Once name j) : i = j := by
  rw [← occurrences_eq_singleton_iff] at hi hj
  exact List.singleton_inj.mp (hi.symm.trans hj)

theorem Once.count_le_one (h : fields.Once name j) : (fields.map (·.1)).count name ≤ 1 :=
  Nat.le_of_eq h.1

/-! ### Fields -/

theorem required?_eq_some_iff {value? : Json → Option α} {a : α} :
    fields.required? name value? = some a ↔ ∃ j, fields.Once name j ∧ value? j = some a := by
  constructor
  · intro h
    rw [required?] at h
    split at h
    · next j hj => exact ⟨j, occurrences_eq_singleton_iff.mp hj, h⟩
    · cases h
  · rintro ⟨j, honce, hvalue⟩
    rw [required?, occurrences_eq_singleton_iff.mpr honce]
    exact hvalue

/-- A field whose data has one form holds that form. -/
theorem required?_eq_some_iff_once {value? : Json → Option α} {encode : α → Json} {a : α}
    (h : ∀ {j : Json} {a : α}, value? j = some a ↔ j = encode a) :
    fields.required? name value? = some a ↔ fields.Once name (encode a) := by
  rw [required?_eq_some_iff]
  constructor
  · rintro ⟨j, honce, hvalue⟩
    exact h.mp hvalue ▸ honce
  · intro honce
    exact ⟨_, honce, h.mpr rfl⟩

theorem required?_asSet?_eq_some_iff [Ord α] [Std.TransOrd α] [Std.LawfulEqOrd α]
    {value? : Json → Option α} {encode : α → Json} {s : SortedSet α}
    (h : ∀ {j : Json} {a : α}, value? j = some a ↔ j = encode a) :
    fields.required? name (asSet? value?) = some s ↔
      ∃ l : List α, fields.Once name (array (l.map encode)) ∧ ∀ a, a ∈ s ↔ a ∈ l := by
  rw [required?_eq_some_iff]
  constructor
  · rintro ⟨j, honce, hset⟩
    obtain ⟨l, rfl, hmem⟩ := (asSet?_eq_some_iff h).mp hset
    exact ⟨l, honce, hmem⟩
  · rintro ⟨l, honce, hmem⟩
    exact ⟨_, honce, (asSet?_eq_some_iff h).mpr ⟨l, rfl, hmem⟩⟩

/-- A field that holds a form of the data, or, for missing data, `null` or nothing. -/
def Optionally (fields : Fields) (name : String) (IsForm : Json → α → Prop) : Option α → Prop
  | none => fields.Absent name ∨ fields.Once name .null
  | some a => ∃ j, fields.Once name j ∧ IsForm j a

theorem Optionally.count_le_one {IsForm : Json → α → Prop} {o : Option α}
    (h : fields.Optionally name IsForm o) : (fields.map (·.1)).count name ≤ 1 := by
  cases o with
  | none =>
    obtain habsent | honce := h
    · exact Nat.le_trans (Nat.le_of_eq habsent) (Nat.zero_le 1)
    · exact honce.count_le_one
  | some a =>
    obtain ⟨j, honce, -⟩ := h
    exact honce.count_le_one

theorem optional?_eq_some_iff {value? : Json → Option α} {IsForm : Json → α → Prop}
    (h : ∀ {j : Json} {a : α}, value? j = some a ↔ IsForm j a) (hnull : value? .null = none)
    {o : Option α} :
    fields.optional? name value? = some o ↔ fields.Optionally name IsForm o := by
  rw [optional?]
  split
  · next hnone =>
    have habsent := occurrences_eq_nil_iff.mp hnone
    cases o with
    | none => exact iff_of_true rfl (.inl habsent)
    | some a =>
      refine iff_of_false (by simp) ?_
      rintro ⟨j, honce, -⟩
      rw [Once, habsent] at honce
      exact absurd honce.1 Nat.zero_ne_one
  · next j hj =>
    have honce := occurrences_eq_singleton_iff.mp hj
    rw [asNullable?_eq_some_iff]
    cases o with
    | none =>
      have hpresent : ¬fields.Absent name := by
        rw [Absent, honce.1]
        exact Nat.one_ne_zero
      simp only [Optionally, hpresent, false_or, reduceCtorEq, false_and, exists_false, and_false,
        or_false, and_true]
      constructor
      · rintro rfl
        exact honce
      · exact honce.unique
    | some a =>
      simp only [Optionally, reduceCtorEq, and_false, false_or, Option.some.injEq, exists_eq_left']
      constructor
      · rintro ⟨-, hvalue⟩
        exact ⟨j, honce, h.mp hvalue⟩
      · rintro ⟨i, hi, hform⟩
        obtain rfl := hi.unique honce
        have hvalue := h.mpr hform
        -- a value that data is read from is not the one that stands for missing data
        refine ⟨?_, hvalue⟩
        rintro rfl
        rw [hnull] at hvalue
        cases hvalue
  · next hnil hone =>
    refine iff_of_false (by simp) ?_
    cases o with
    | none =>
      rintro (habsent | honce)
      · exact hnil (occurrences_eq_nil_iff.mpr habsent)
      · exact hone _ (occurrences_eq_singleton_iff.mpr honce)
    | some a =>
      rintro ⟨j, honce, -⟩
      exact hone j (occurrences_eq_singleton_iff.mpr honce)

end Fields

end Json

end JudgePolicy
