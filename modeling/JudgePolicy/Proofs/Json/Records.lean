/-
Data decoded from the JSON value it was encoded as.

* `asInt32?_ofId`, `asSet?_array`, `asNullable?_ofOption`, `asRecord?_record` — identifiers,
  sets, values that may be missing, and the fields of a record;
* `readText?_toText` — data that decodes, and has a text that reads back, is read from it;
* `rewriteText?_idempotent` — so reading and writing a text twice is the same as doing it once.

Design notes: a set is written in the order of its list and read from any list, so a set
decodes as soon as its elements do.  A value that may be missing needs more: nothing but the
missing value may be written as `null`.
-/
import JudgePolicy.Exchange.Profile
import JudgePolicy.Proofs.Json.RoundTrip
namespace JudgePolicy

namespace Json

section Values

variable {α : Type} {encode : α → Json} {decode? : Json → Option α}

theorem asText?_ofString (s : String) : asText? (ofString s) = some s := rfl

theorem toInt?_ofInt (i : Int) : (Numeral.ofInt i).toInt? = some i := by
  have hzero : ¬(decide (i < 0) = true ∧ i.natAbs = 0) := by
    rw [decide_eq_true_iff]
    omega
  rw [Numeral.ofInt, Numeral.toInt?, if_pos ⟨rfl, rfl, hzero⟩]
  by_cases hneg : i < 0
  · rw [if_pos (by simpa using hneg)]
    exact congrArg some (show -(i.natAbs : Int) = i by omega)
  · rw [if_neg (by simpa using hneg)]
    exact congrArg some (show (i.natAbs : Int) = i by omega)

theorem asInt32?_ofId (id : Int32) : asInt32? (ofId id) = some id := by
  have hrange : -2147483648 ≤ id.toInt ∧ id.toInt ≤ 2147483647 :=
    ⟨id.le_toInt, Int.le_of_lt_add_one id.toInt_lt⟩
  rw [ofId, ofInt, asInt32?, toInt?_ofInt, Option.bind_eq_bind, Option.bind_some, if_pos hrange,
    Int32.ofInt_toInt]

theorem asList?_array (h : ∀ a, decode? (encode a) = some a) (l : List α) :
    asList? decode? (array (l.map encode)) = some l := by
  induction l with
  | nil => rfl
  | cons a l ih =>
    rw [asList?] at ih
    simp [asList?, h a, ih]

theorem asSet?_array [Ord α] [Std.TransOrd α] [Std.LawfulEqOrd α]
    (h : ∀ a, decode? (encode a) = some a) (s : SortedSet α) :
    asSet? decode? (array (s.toList.map encode)) = some s := by
  rw [asSet?, asList?_array h, Option.map_some, SortedSet.ofList_toList]

/-- A value that may be missing decodes, if no value is encoded as `null`. -/
theorem asNullable?_ofOption {o : Option α}
    (h : ∀ a ∈ o, encode a ≠ null ∧ decode? (encode a) = some a) :
    asNullable? decode? (ofOption encode o) = some o := by
  cases o with
  | none => rfl
  | some a =>
    obtain ⟨hnull, hdecode⟩ := h a rfl
    rw [ofOption, asNullable?, hdecode, Option.map_some]
    exact hnull

end Values

/-! ### Records -/

theorem asRecord?_record (names : List String) (fields : Fields) :
    asRecord? names (record fields) = some fields := by
  rw [record, asRecord?, namedMembers?]
  induction fields with
  | nil => rfl
  | cons f fields ih => simp [ih]

/-! ### What has a written form -/

theorem writable_ofId (id : Int32) : (ofId id).Writable := .number _

theorem writable_ofIds (ids : List Int32) : (ofIds ids).Writable :=
  .array (List.forall_mem_map.mpr fun id _ => writable_ofId id)

theorem writable_ofStrings (strings : List String) : (ofStrings strings).Writable :=
  .array (List.forall_mem_map.mpr fun s _ => .ofString s)

theorem writable_ofOption {α : Type} {encode : α → Json} (h : ∀ a, (encode a).Writable)
    (o : Option α) : (ofOption encode o).Writable := by
  cases o with
  | none => exact .null
  | some a => exact h a

/-! ### Texts -/

section Texts

variable {α : Type} (decode? : Json → Option α) (encode : α → Json)

/-- The data a text writes. -/
def readText? (text : String) : Option α := (parse? text).bind decode?

/-- A text read as data, and the data written again. -/
def rewriteText? (text : String) : Option String :=
  (readText? decode? text).map fun a => (encode a).toText

variable {decode? encode} {a : α}

/-- Encoded data is read from its text. -/
theorem readText?_toText (hwritable : (encode a).Writable) (h : decode? (encode a) = some a) :
    readText? decode? (encode a).toText = some a := by
  rw [readText?, parse?_toText hwritable, Option.bind_some, h]

/-- What is written after a text was read is read as the same data, and is written again as
it is. -/
theorem rewriteText?_idempotent (hwritable : (encode a).Writable)
    (h : decode? (encode a) = some a) {text : String} (hread : readText? decode? text = some a) :
    ∃ out, rewriteText? decode? encode text = some out ∧ readText? decode? out = some a ∧
      rewriteText? decode? encode out = some out := by
  have hagain := readText?_toText hwritable h
  refine ⟨(encode a).toText, ?_, hagain, ?_⟩
  · rw [rewriteText?, hread, Option.map_some]
  · rw [rewriteText?, hagain, Option.map_some]

end Texts

end Json

end JudgePolicy
