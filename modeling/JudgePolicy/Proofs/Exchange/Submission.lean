/-
Submissions are read from the texts they are written as.

* `asBinary64?_ofBinary64` — points read back, the sign of zero included, if they are finite;
* `Submission.ofJson?_toJson`, `Submission.writable_toJson` — so a submission decodes, and has
  a text that reads back;
* `submissions_round_trip` — writing and reading again changes nothing, and the points are
  written as a shortest decimal and read as the nearest number.

Design notes: points that are not finite are written as `null`, which is no number, so the
converse holds as well: only submissions with finite points are read back.
-/
import JudgePolicy.Exchange.Submission
import JudgePolicy.Proofs.Json.Fields
import JudgePolicy.Proofs.Number.Written
namespace JudgePolicy

open Json

namespace Json

theorem asBinary64?_eq_some_iff {j : Json} {x : Binary64} :
    j.asBinary64? = some x ↔ ∃ n, j = .number n ∧ n.toBinary64 = x ∧ x.isFinite = true := by
  cases j with
  | number n =>
    rw [asBinary64?]
    split
    · next hfinite =>
      rw [Option.some_inj]
      constructor
      · rintro rfl
        exact ⟨n, rfl, rfl, hfinite⟩
      · rintro ⟨m, hm, hx, -⟩
        rwa [Json.number.inj hm]
    · next hinfinite =>
      refine iff_of_false (by simp) ?_
      rintro ⟨m, hm, rfl, hfinite⟩
      exact hinfinite (Json.number.inj hm ▸ hfinite)
  | _ => simp [asBinary64?]

/-- Finite points are read back as they were. -/
theorem asBinary64?_ofBinary64 {x : Binary64} (h : x.isFinite = true) :
    asBinary64? (ofBinary64 x) = some x := by
  obtain ⟨negative, d, hwritten, -⟩ := x.exists_toNumeral?_iff.mpr h
  rw [ofBinary64, hwritten]
  exact asBinary64?_eq_some_iff.mpr ⟨_, rfl, Binary64.toBinary64_of_toNumeral? hwritten, h⟩

theorem writable_ofBinary64 (x : Binary64) : (ofBinary64 x).Writable := by
  rw [ofBinary64]
  split
  · exact .number _
  · exact .null

end Json

theorem Verdict.ofJson?_toJson (v : Verdict) : Verdict.ofJson? v.toJson = some v :=
  ofCode?_code v

namespace Submission

theorem ofJson?_toJson {s : Submission} (h : s.points.isFinite = true) :
    Submission.ofJson? s.toJson = some s := by
  rw [ofJson?, toJson, asRecord?_record, Option.bind_some, ofFields?]
  simp [Fields.required?, Fields.occurrences, asInt32?_ofId, asText?_ofString,
    Verdict.ofJson?_toJson, asBinary64?_ofBinary64 h]

theorem isFinite_of_ofFields? {fields : Fields} {s : Submission}
    (h : ofFields? fields = some s) : s.points.isFinite = true := by
  obtain ⟨profile, -, h⟩ := Option.bind_eq_some_iff.mp h
  obtain ⟨problem, -, h⟩ := Option.bind_eq_some_iff.mp h
  obtain ⟨verdict, -, h⟩ := Option.bind_eq_some_iff.mp h
  obtain ⟨points, hpoints, h⟩ := Option.bind_eq_some_iff.mp h
  obtain ⟨language, -, h⟩ := Option.bind_eq_some_iff.mp h
  obtain rfl := Option.some.inj h
  obtain ⟨j, -, hj⟩ := Fields.required?_eq_some_iff.mp hpoints
  obtain ⟨n, -, -, hfinite⟩ := asBinary64?_eq_some_iff.mp hj
  exact hfinite

/-- What is read has finite points. -/
theorem isFinite_of_ofJson? {j : Json} {s : Submission} (h : Submission.ofJson? j = some s) :
    s.points.isFinite = true := by
  obtain ⟨fields, -, hread⟩ := Option.bind_eq_some_iff.mp h
  exact isFinite_of_ofFields? hread

theorem writable_toJson (s : Submission) : s.toJson.Writable := by
  refine .record ?_
  simp [writable_ofId, writable_ofBinary64, Writable.ofString, Verdict.toJson]

/-- A submission is read from its text exactly if its points are finite. -/
theorem readText?_toText_iff (s : Submission) :
    readText? Submission.ofJson? s.toJson.toText = some s ↔ s.points.isFinite = true := by
  constructor
  · intro h
    obtain ⟨j, -, hread⟩ := Option.bind_eq_some_iff.mp h
    exact isFinite_of_ofJson? hread
  · intro h
    exact readText?_toText s.writable_toJson (ofJson?_toJson h)

end Submission

/-- **Submissions round-trip.**  A submission is read from the text it is written as if its
points are finite, and not otherwise.  A text that writes one, in whatever form, need only be
read and written once: the result is read as the same data, and reading and writing it again
leaves it as it is.  Points are written as a decimal that reads as them and has as few digits
as any that does, and every numeral is read as the number of the nearest magnitude. -/
theorem submissions_round_trip :
    (∀ s : Submission,
      readText? Submission.ofJson? s.toJson.toText = some s ↔ s.points.isFinite = true) ∧
    (∀ (text : String) (s : Submission), readText? Submission.ofJson? text = some s →
      ∃ out, rewriteText? Submission.ofJson? Submission.toJson text = some out ∧
        readText? Submission.ofJson? out = some s ∧
        rewriteText? Submission.ofJson? Submission.toJson out = some out) ∧
    (∀ x : Binary64,
      (∃ negative d, x.toNumeral? = some (.data negative d) ∧ x.IsShortest negative d) ↔
        x.isFinite = true) ∧
    (∀ n : Numeral, ∃ k, Binary64.IsNearest n.inUnits k ∧
      n.toBinary64 = .ofOrdinal n.negative k) := by
  refine ⟨Submission.readText?_toText_iff, ?_, Binary64.exists_toNumeral?_iff,
    Numeral.exists_isNearest⟩
  intro text s hread
  obtain ⟨j, -, hj⟩ := Option.bind_eq_some_iff.mp hread
  -- no text writes points that are not finite, not even one with an exponent beyond all bounds
  have hfinite := Submission.isFinite_of_ofJson? hj
  exact rewriteText?_idempotent s.writable_toJson (Submission.ofJson?_toJson hfinite) hread

/-- A submission whose points are negative zero. -/
def zeroedSubmission : Submission :=
  ⟨-2147483648, 2147483647, .accepted, .ofOrdinal true 0, "Lua \"5.4\""⟩

/-- A submission with the largest finite points. -/
def largestSubmission : Submission :=
  ⟨7, -1, .timeLimitExceeded, .ofOrdinal false 0x7FEFFFFFFFFFFFFF, "C++\n"⟩

/-- The first submission in other words: in another order, with a verdict as an object, and
with zero in a form of its own. -/
def zeroedText : String :=
  "\x7b\"points\": -0.00E+9, \"language\":\"\\u004cua \\\"5.4\\\"\", \"judge\": [1e999], " ++
  "\"result\": \x7b\"AC\": null\x7d, \"problem\":2147483647, \"profile\":-2147483648\x7d"

/-- The second one as an array, with more digits than its points need. -/
def largestText : String := "[7,-1,\"TLE\",17976931348623158079.3728e289,\"C++\\n\"]"

/-- Both texts are read as the submissions, and written again with the same points. -/
theorem submissions_round_trip_extreme :
    readText? Submission.ofJson? zeroedSubmission.toJson.toText = some zeroedSubmission ∧
    readText? Submission.ofJson? largestSubmission.toJson.toText = some largestSubmission ∧
    (∃ out, rewriteText? Submission.ofJson? Submission.toJson zeroedText = some out ∧
      out ≠ zeroedText ∧ readText? Submission.ofJson? out = some zeroedSubmission ∧
      rewriteText? Submission.ofJson? Submission.toJson out = some out) ∧
    (∃ out, rewriteText? Submission.ofJson? Submission.toJson largestText = some out ∧
      readText? Submission.ofJson? out = some largestSubmission ∧
      rewriteText? Submission.ofJson? Submission.toJson out = some out) := by
  obtain ⟨hwritten, hread, -, -⟩ := submissions_round_trip
  obtain ⟨out, hout, hagain⟩ := hread zeroedText zeroedSubmission (by decide +kernel)
  obtain ⟨out', hout', hagain'⟩ := hread largestText largestSubmission (by decide +kernel)
  have hother : out ≠ zeroedText := by
    intro hsame
    exact absurd (hsame ▸ hout) (by decide +kernel)
  exact ⟨(hwritten _).mpr rfl, (hwritten _).mpr rfl, ⟨out, hout, hother, hagain⟩,
    out', hout', hagain'⟩

end JudgePolicy
