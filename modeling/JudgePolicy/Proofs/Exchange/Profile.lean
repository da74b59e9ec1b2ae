/-
Profiles and participations are read from the texts they are written as.

* `Participation.ofJson?_toJson`, `Profile.ofJson?_toJson` — what is encoded decodes;
* `Participation.writable_toJson`, `Profile.writable_toJson` — and has a text that reads back;
* `identities_round_trip` — so writing and reading again changes nothing.

Design notes: a text that writes a profile may repeat the elements of a set, name an offset
from UTC, leave out what is missing, and escape what needs no escape.  Writing what was read
removes all of that, and what it leaves is read as before.
-/
import JudgePolicy.Proofs.Json.Records
import JudgePolicy.Proofs.Time.Timestamps
namespace JudgePolicy

open Json

namespace Instant

theorem ofJson?_toJson {t : Instant} (h : t.IsOrdinary) : Instant.ofJson? t.toJson = some t := by
  rw [ofJson?, toJson, asText?_ofString, Option.bind_some, Timestamp.ofText?_text h]

theorem toJson_ne_null (t : Instant) : t.toJson ≠ null := by
  simp [toJson, ofString]

theorem writable_toJson (t : Instant) : t.toJson.Writable := .ofString _

end Instant

/-! ### Participations -/

namespace Participation

/-- The participation never ends, or ends at an ordinary instant. -/
def IsOrdinary (p : Participation) : Prop := ∀ t ∈ p.endsAt, t.IsOrdinary

theorem ofJson?_toJson {p : Participation} (h : p.IsOrdinary) :
    Participation.ofJson? p.toJson = some p := by
  have hends : asNullable? Instant.ofJson? (ofOption Instant.toJson p.endsAt) = some p.endsAt :=
    asNullable?_ofOption fun t ht => ⟨t.toJson_ne_null, Instant.ofJson?_toJson (h t ht)⟩
  rw [ofJson?, toJson, asRecord?_record, Option.bind_some, ofFields?]
  simp [Fields.required?, Fields.optional?, Fields.occurrences, asInt32?_ofId, hends]

theorem toJson_ne_null (p : Participation) : p.toJson ≠ null := by
  simp [toJson, record]

theorem writable_toJson (p : Participation) : p.toJson.Writable := by
  have hends := writable_ofOption Instant.writable_toJson p.endsAt
  refine .record ?_
  simpa using ⟨writable_ofId p.contest, hends⟩

end Participation

/-! ### Profiles -/

namespace Profile

/-- The profile has no participation, or an ordinary one. -/
def IsOrdinary (p : Profile) : Prop := ∀ q ∈ p.participation, q.IsOrdinary

theorem ofJson?_toJson {p : Profile} (h : p.IsOrdinary) :
    Profile.ofJson? p.toJson = some p := by
  have hpermissions : asSet? asText? (ofStrings p.permissions.toList) = some p.permissions :=
    asSet?_array asText?_ofString _
  have hids (ids : SortedSet Int32) : asSet? asInt32? (ofIds ids.toList) = some ids :=
    asSet?_array asInt32?_ofId _
  have hparticipation :
      asNullable? Participation.ofJson? (ofOption Participation.toJson p.participation) =
        some p.participation :=
    asNullable?_ofOption fun q hq => ⟨q.toJson_ne_null, Participation.ofJson?_toJson (h q hq)⟩
  rw [ofJson?, toJson, asRecord?_record, Option.bind_some, ofFields?]
  simp [Fields.required?, Fields.optional?, Fields.occurrences, asInt32?_ofId, asText?_ofString,
    asBool?, hpermissions, hids, hparticipation]

theorem writable_toJson (p : Profile) : p.toJson.Writable := by
  have hparticipation := writable_ofOption Participation.writable_toJson p.participation
  refine .record ?_
  simp [writable_ofId, writable_ofIds, writable_ofStrings, Writable.ofString, Writable.bool,
    hparticipation]

end Profile

/-! ### Texts -/

/-- **Identities round-trip.**  A participation or a profile is read from the text it is
written as.  So a text that writes one, in whatever form, need only be read and written once:
the result is read as the same data, and reading and writing it again leaves it as it is. -/
theorem identities_round_trip :
    (∀ p : Participation, p.IsOrdinary →
      readText? Participation.ofJson? p.toJson.toText = some p) ∧
    (∀ p : Profile, p.IsOrdinary → readText? Profile.ofJson? p.toJson.toText = some p) ∧
    (∀ (text : String) (p : Participation), readText? Participation.ofJson? text = some p →
      p.IsOrdinary → ∃ out,
        rewriteText? Participation.ofJson? Participation.toJson text = some out ∧
        readText? Participation.ofJson? out = some p ∧
        rewriteText? Participation.ofJson? Participation.toJson out = some out) ∧
    (∀ (text : String) (p : Profile), readText? Profile.ofJson? text = some p →
      p.IsOrdinary → ∃ out,
        rewriteText? Profile.ofJson? Profile.toJson text = some out ∧
        readText? Profile.ofJson? out = some p ∧
        rewriteText? Profile.ofJson? Profile.toJson out = some out) := by
  refine ⟨?_, ?_, ?_, ?_⟩
  · intro p h
    exact readText?_toText p.writable_toJson (Participation.ofJson?_toJson h)
  · intro p h
    exact readText?_toText p.writable_toJson (Profile.ofJson?_toJson h)
  · intro text p hread h
    exact rewriteText?_idempotent p.writable_toJson (Participation.ofJson?_toJson h) hread
  · intro text p hread h
    exact rewriteText?_idempotent p.writable_toJson (Profile.ofJson?_toJson h) hread

/-- A participation that ends within the last second of a year. -/
def closingParticipation : Participation := ⟨-7, some ⟨1262303999, 120000000, by decide⟩⟩

/-- A profile whose strings hold a quote, a backslash, a line feed, a control character and
letters beyond ASCII. -/
def awkwardProfile : Profile where
  id := -2147483648
  username := "\"\\\n\u0001é𝄞"
  permissions := SortedSet.ofList ["", "x", "\t\u007f"]
  organizations := SortedSet.ofList [3, -1, 3]
  participation := some closingParticipation

/-- The participation in other words: with an offset, a lower-case mark, fewer digits and
another order of the fields. -/
def closingText : String :=
  "\x7b \"ends_at\": \"2010-01-01t00:59:59.12+01:00\", \"room\": [1e2], \"contest\" : -7 \x7d"

/-- The profile in other words: as an array, with escapes and with repeated elements. -/
def awkwardText : String :=
  "[-2147483648,\"\\\"\\\\\\n\\u0001\\u00e9\\ud834\\uDD1E\",false,false,false,false," ++
  "[\"x\",\"\",\"\\t\\u007F\",\"\"],[3,-1,3],[],[-7,\"2009-12-31 23:59:59.12Z\"]]"

/-- Both texts are read as the data.  The first is not what the data is written as, but what
is written instead is read and written again without a change. -/
theorem identities_round_trip_awkward :
    readText? Participation.ofJson? closingParticipation.toJson.toText =
      some closingParticipation ∧
    readText? Profile.ofJson? awkwardProfile.toJson.toText = some awkwardProfile ∧
    (∃ out, rewriteText? Participation.ofJson? Participation.toJson closingText = some out ∧
      out ≠ closingText ∧ readText? Participation.ofJson? out = some closingParticipation ∧
      rewriteText? Participation.ofJson? Participation.toJson out = some out) ∧
    (∃ out, rewriteText? Profile.ofJson? Profile.toJson awkwardText = some out ∧
      readText? Profile.ofJson? out = some awkwardProfile ∧
      rewriteText? Profile.ofJson? Profile.toJson out = some out) := by
  obtain ⟨hparticipation, hprofile, hparticipations, hprofiles⟩ := identities_round_trip
  have hclosing : closingParticipation.IsOrdinary := by
    intro t ht
    obtain rfl := Option.some.inj ht
    exact ⟨by decide, by decide, by decide⟩
  have hawkward : awkwardProfile.IsOrdinary := by
    intro q hq
    obtain rfl := Option.some.inj hq
    exact hclosing
  obtain ⟨out, hout, hread⟩ :=
    hparticipations closingText closingParticipation (by decide +kernel) hclosing
  obtain ⟨out', hout', hread'⟩ :=
    hprofiles awkwardText awkwardProfile (by decide +kernel) hawkward
  have hother : out ≠ closingText := by
    intro hsame
    exact absurd (hsame ▸ hout) (by decide +kernel)
  exact ⟨hparticipation _ hclosing, hprofile _ hawkward, ⟨out, hout, hother, hread⟩,
    out', hout', hread'⟩

end JudgePolicy
