/-
A written JSON value reads back.

* `Reads` — a value is read from its written form, whatever follows, unless that would
  continue a number;
* `reads_array`, `reads_record` — a list or a record reads if all of its parts do;
* `parse?_toText` — so every value whose strings are texts is the one its text writes.

Design notes: a string that holds half of a surrogate pair has no written form of its own,
and neither has a name.  `Writable` leaves both out.  For each value, twice the length of
what is written is fuel enough, and one unit more where a bracket was already taken off.
-/
import JudgePolicy.Json.Parser
import JudgePolicy.Json.Printer
namespace JudgePolicy

namespace Json

/-- Every string in the value is a text, and so is every name. -/
inductive Writable : Json → Prop where
  | null : Writable .null
  | bool (b : Bool) : Writable (.bool b)
  | number (n : Numeral) : Writable (.number n)
  | ofString (s : String) : Writable (.ofString s)
  | array {elements : List Json} (h : ∀ e ∈ elements, Writable e) : Writable (.array elements)
  | record {members : List (String × Json)} (h : ∀ m ∈ members, Writable m.2) :
      Writable (.record members)

/-- The value is read from its written form, whatever follows. -/
def Reads (j : Json) : Prop :=
  ∀ (fuel : Nat) (rest : List Char), 2 * j.render.length ≤ fuel → Numeral.NoContinuation rest →
    readValue? fuel (j.render ++ rest) = some (j, rest)

/-! ### What a written value begins with -/

theorem skipSpace_cons {c : Char} (cs : List Char) (h : isSpace c = false) :
    skipSpace (c :: cs) = c :: cs := by
  simp [skipSpace, h]

theorem noContinuation_cons {c : Char} (cs : List Char)
    (h : Digit.ofChar? c = none ∧ c ≠ '.' ∧ c ≠ 'e' ∧ c ≠ 'E') :
    Numeral.NoContinuation (c :: cs) := by
  intro d hd
  obtain rfl := Option.some.inj hd
  exact h

/-- A written number begins with a sign or a digit. -/
theorem render_number_eq_cons (n : Numeral) :
    ∃ c cs, n.render = c :: cs ∧ (c = '-' ∨ ∃ d : Digit, d.char = c) := by
  cases hd : digits n.whole with
  | nil => exact absurd hd (digits_ne_nil n.whole)
  | cons d ds =>
    cases hn : n.negative with
    | true => exact ⟨'-', _, by simp [Numeral.render, hn]; rfl, .inl rfl⟩
    | false => exact ⟨d.char, _, by simp [Numeral.render, hn, hd]; rfl, .inr ⟨d, rfl⟩⟩

/-- No written value begins with a blank or a closing bracket. -/
theorem render_eq_cons (j : Json) :
    ∃ c cs, j.render = c :: cs ∧ isSpace c = false ∧ c ≠ ']' := by
  cases j with
  | null => exact ⟨'n', _, rfl, rfl, by decide⟩
  | bool b =>
    cases b with
    | true => exact ⟨'t', _, rfl, rfl, by decide⟩
    | false => exact ⟨'f', _, rfl, rfl, by decide⟩
  | number n =>
    obtain ⟨c, cs, hrender, hc⟩ := render_number_eq_cons n
    refine ⟨c, cs, hrender, ?_⟩
    obtain rfl | ⟨d, rfl⟩ := hc
    · decide
    · exact (by decide : ∀ d : Digit, isSpace d.char = false ∧ d.char ≠ ']') d
  | text s => exact ⟨'"', _, rfl, rfl, by decide⟩
  | array elements =>
    cases elements with
    | nil => exact ⟨'[', _, rfl, rfl, by decide⟩
    | cons e es => exact ⟨'[', _, rfl, rfl, by decide⟩
  | object members =>
    cases members with
    | nil => exact ⟨'{', _, rfl, rfl, by decide⟩
    | cons m ms => exact ⟨'{', _, rfl, rfl, by decide⟩

theorem exists_fuel {j : Json} {fuel : Nat} (h : 2 * j.render.length ≤ fuel) :
    ∃ k, fuel = k + 1 := by
  obtain ⟨c, cs, hrender, -⟩ := j.render_eq_cons
  rw [hrender, List.length_cons] at h
  exact ⟨fuel - 1, by omega⟩

/-! ### Values without parts -/

theorem reads_null : Reads null := by
  intro fuel rest hfuel hrest
  obtain ⟨fuel, rfl⟩ := exists_fuel hfuel
  rfl

theorem reads_bool (b : Bool) : Reads (.bool b) := by
  intro fuel rest hfuel hrest
  obtain ⟨fuel, rfl⟩ := exists_fuel hfuel
  cases b with
  | true => rfl
  | false => rfl

theorem renderText_append (k : String) (rest : List Char) :
    renderText (some k) ++ rest = '"' :: (k.toList.flatMap escape ++ '"' :: rest) := by
  simp [renderText, quote]

theorem reads_ofString (s : String) : Reads (ofString s) := by
  intro fuel rest hfuel hrest
  obtain ⟨fuel, rfl⟩ := exists_fuel hfuel
  have hread := readQuoted?_quote s rest
  simp [ofString, render, renderText_append, readValue?, skipSpace_cons, isSpace, hread]

theorem readValue?_of_number {c : Char} (cs : List Char) (fuel : Nat)
    (hc : c = '-' ∨ ∃ d : Digit, d.char = c) :
    readValue? (fuel + 1) (c :: cs) =
      (Numeral.read? (c :: cs)).map fun r => (number r.1, r.2) := by
  have hplain : isSpace c = false ∧ c ≠ 'n' ∧ c ≠ 't' ∧ c ≠ 'f' ∧ c ≠ '"' ∧ c ≠ '[' ∧ c ≠ '{' := by
    obtain rfl | ⟨d, rfl⟩ := hc
    · decide
    · revert d
      decide
  obtain ⟨hspace, hn, ht, hf, hquote, hbracket, hbrace⟩ := hplain
  rw [readValue?, skipSpace_cons cs hspace]
  split
  · next h => exact absurd (List.cons.inj h).1 hn
  · next h => exact absurd (List.cons.inj h).1 ht
  · next h => exact absurd (List.cons.inj h).1 hf
  · next h => exact absurd (List.cons.inj h).1 hquote
  · next h => exact absurd (List.cons.inj h).1 hbracket
  · next h => exact absurd (List.cons.inj h).1 hbrace
  · rfl

theorem reads_number (n : Numeral) : Reads (.number n) := by
  intro fuel rest hfuel hrest
  obtain ⟨fuel, rfl⟩ := exists_fuel hfuel
  obtain ⟨c, cs, hrender, hc⟩ := render_number_eq_cons n
  have hread := Numeral.read?_render n hrest
  rw [render, hrender, List.cons_append] at *
  rw [readValue?_of_number _ _ hc, hread]
  rfl

/-! ### Lists -/

theorem readElements?_render {e : Json} {es : List Json} (he : e.Reads) (hes : ∀ x ∈ es, x.Reads)
    (fuel : Nat) (rest : List Char)
    (hfuel : 2 * (e.render.length + (renderElements es).length) + 1 ≤ fuel) :
    readElements? fuel (e.render ++ (renderElements es ++ rest)) = some (e :: es, rest) := by
  induction es generalizing e fuel with
  | nil =>
    obtain ⟨fuel, rfl⟩ : ∃ k, fuel = k + 1 := ⟨fuel - 1, by omega⟩
    have hread := he fuel (']' :: rest) (by omega) (noContinuation_cons rest (by decide))
    rw [readElements?, renderElements, List.cons_append, List.nil_append, hread]
    rfl
  | cons x xs ih =>
    obtain ⟨fuel, rfl⟩ : ∃ k, fuel = k + 1 := ⟨fuel - 1, by omega⟩
    rw [renderElements, List.cons_append, List.length_cons, List.length_append] at hfuel
    have hread := he fuel (',' :: (x.render ++ (renderElements xs ++ rest))) (by omega)
      (noContinuation_cons _ (by decide))
    have htail := ih (hes x List.mem_cons_self)
      (fun y hy => hes y (List.mem_cons_of_mem x hy)) fuel (by omega)
    rw [readElements?, renderElements, List.cons_append, List.cons_append, List.append_assoc,
      hread]
    simp [skipSpace_cons, isSpace, htail]

/-- A list that is not empty is read as elements, once its bracket is taken off. -/
theorem readValue?_of_elements {c : Char} (cs : List Char) (fuel : Nat)
    (hspace : isSpace c = false) (hbracket : c ≠ ']') :
    readValue? (fuel + 1) ('[' :: c :: cs) =
      (readElements? fuel (c :: cs)).map fun r => (array r.1, r.2) := by
  simp only [readValue?, skipSpace_cons _ hspace, skipSpace_cons (c := '[') _ rfl]
  split
  · next h => exact absurd (List.cons.inj h).1 hbracket
  · rfl

theorem reads_array {es : List Json} (hes : ∀ e ∈ es, e.Reads) : Reads (array es) := by
  intro fuel rest hfuel hrest
  obtain ⟨fuel, rfl⟩ := exists_fuel hfuel
  cases es with
  | nil => rfl
  | cons e es =>
    rw [render, List.cons_append, List.length_cons, List.length_append] at hfuel
    have hread := readElements?_render (hes e List.mem_cons_self)
      (fun x hx => hes x (List.mem_cons_of_mem e hx)) fuel rest (by omega)
    obtain ⟨c, cs, hrender, hspace, hbracket⟩ := e.render_eq_cons
    rw [hrender, List.cons_append] at hread
    rw [render, hrender, List.cons_append, List.cons_append, List.cons_append, List.cons_append,
      List.append_assoc, readValue?_of_elements _ _ hspace hbracket, hread]
    rfl

/-! ### Records -/

theorem readName?_render (k : String) (rest : List Char) :
    readName? (k.toList.flatMap escape ++ '"' :: ':' :: rest) = some (some k, rest) := by
  have hread := readQuoted?_quote k (':' :: rest)
  simp [readName?, hread, skipSpace_cons, isSpace]

theorem readMembers?_render {m : String × Json} {ms : List (String × Json)} (hm : m.2.Reads)
    (hms : ∀ x ∈ ms, x.2.Reads) (fuel : Nat) (rest : List Char)
    (hfuel : 2 * (m.2.render.length +
      (renderMembers (ms.map fun m => (some m.1, m.2))).length) + 1 ≤ fuel) :
    readMembers? fuel (renderText (some m.1) ++ ':' :: (m.2.render ++
      (renderMembers (ms.map fun m => (some m.1, m.2)) ++ rest))) =
        some ((m :: ms).map fun m => (some m.1, m.2), rest) := by
  induction ms generalizing m fuel with
  | nil =>
    obtain ⟨fuel, rfl⟩ : ∃ k, fuel = k + 1 := ⟨fuel - 1, by omega⟩
    have hread := hm fuel ('}' :: rest) (by omega) (noContinuation_cons rest (by decide))
    simp [renderText_append, readMembers?, renderMembers, skipSpace_cons, isSpace,
      readName?_render, hread]
  | cons x xs ih =>
    obtain ⟨fuel, rfl⟩ : ∃ k, fuel = k + 1 := ⟨fuel - 1, by omega⟩
    simp only [List.map_cons, renderMembers, List.cons_append, List.length_cons,
      List.length_append] at hfuel
    have hread := hm fuel (',' :: (renderText (some x.1) ++ ':' :: (x.2.render ++
      (renderMembers (xs.map fun m => (some m.1, m.2)) ++ rest)))) (by omega)
      (noContinuation_cons _ (by decide))
    have htail := ih (hms x List.mem_cons_self)
      (fun y hy => hms y (List.mem_cons_of_mem x hy)) fuel (by omega)
    rw [renderText_append, List.map_cons] at htail
    rw [renderText_append] at hread
    simp [renderText_append, readMembers?, renderMembers, skipSpace_cons, isSpace,
      readName?_render, hread, htail]

theorem reads_record {ms : List (String × Json)} (hms : ∀ m ∈ ms, m.2.Reads) :
    Reads (record ms) := by
  intro fuel rest hfuel hrest
  obtain ⟨fuel, rfl⟩ := exists_fuel hfuel
  cases ms with
  | nil => rfl
  | cons m ms =>
    simp only [record, List.map_cons, render, List.cons_append, List.length_cons,
      List.length_append] at hfuel
    have hread := readMembers?_render (hms m List.mem_cons_self)
      (fun x hx => hms x (List.mem_cons_of_mem m hx)) fuel rest (by omega)
    rw [renderText_append, List.map_cons] at hread
    simp [record, render, renderText_append, readValue?, skipSpace_cons, isSpace, hread]

/-! ### Whole texts -/

theorem Writable.reads {j : Json} (h : j.Writable) : j.Reads := by
  induction h with
  | null => exact reads_null
  | bool b => exact reads_bool b
  | number n => exact reads_number n
  | ofString s => exact reads_ofString s
  | array _ ih => exact reads_array ih
  | record _ ih => exact reads_record ih

/-- **A written value reads back.** -/
theorem parse?_toText {j : Json} (h : j.Writable) : parse? j.toText = some j := by
  have hread := h.reads (2 * j.render.length + 2) [] (by omega) (fun c hc => by simp at hc)
  rw [List.append_nil] at hread
  simp [parse?, toText, hread, skipSpace]

end Json

end JudgePolicy
