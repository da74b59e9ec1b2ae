/-
Checking statements for characters that are not allowed.

A statement that is refused is refused for all of its disallowed characters at once:

* `check_eq_ok_iff`, `check_eq_error_iff` — which statements pass, and what the others
  are refused for;
* `offending_append`, `check_cleaned` — the characters of two texts add up, and without
  them a text passes;
* `pairwise_toNat_lt` — the characters are listed by their code points;
* `listing_injective` — the list can be read back from the message;
* `statements_are_checked_character_by_character` — all of this, for characters that come
  from the settings.

Design notes: the comma and the blank separate the characters in a message and may be among
them.  A message is read back all the same, since every character takes one place and every
separator takes two.
-/
import JudgePolicy.Failure
import JudgePolicy.Settings.Layers
namespace JudgePolicy

namespace Statement

variable {text : String} {disallowed found : SortedSet Char}

theorem isEmpty_offending_iff :
    (offending text disallowed).isEmpty = true ↔ ∀ c ∈ text.toList, c ∉ disallowed := by
  rw [SortedSet.isEmpty, List.isEmpty_iff, List.eq_nil_iff_forall_not_mem]
  simp only [SortedSet.mem_toList, mem_offending, not_and]

/-- A statement passes exactly if it has no disallowed character. -/
theorem check_eq_ok_iff :
    check text disallowed = .ok () ↔ ∀ c ∈ text.toList, c ∉ disallowed := by
  rw [← isEmpty_offending_iff, check]
  cases (offending text disallowed).isEmpty <;> simp

/-- A statement that does not pass is refused for its disallowed characters. -/
theorem check_eq_error_iff :
    check text disallowed = .error found ↔
      (∃ c ∈ text.toList, c ∈ disallowed) ∧ offending text disallowed = found := by
  have hsome : (∃ c ∈ text.toList, c ∈ disallowed) ↔
      ¬(offending text disallowed).isEmpty = true := by
    rw [isEmpty_offending_iff]
    simp only [Classical.not_forall, Classical.not_not, exists_prop]
  rw [hsome, check]
  cases (offending text disallowed).isEmpty <;> simp

/-- The text without the disallowed characters that it has. -/
def cleaned (text : String) (disallowed : SortedSet Char) : String :=
  String.ofList (text.toList.filter (· ∉ offending text disallowed))

/-- Without its disallowed characters a statement passes. -/
theorem check_cleaned (text : String) (disallowed : SortedSet Char) :
    check (cleaned text disallowed) disallowed = .ok () := by
  rw [check_eq_ok_iff, cleaned, String.toList_ofList]
  intro c hc hdisallowed
  obtain ⟨hmem, hnot⟩ := List.mem_filter.mp hc
  exact of_decide_eq_true hnot (mem_offending.mpr ⟨hmem, hdisallowed⟩)

/-- The disallowed characters of two texts add up. -/
theorem offending_append (a b : String) (disallowed : SortedSet Char) :
    offending (a ++ b) disallowed = (offending a disallowed).union (offending b disallowed) := by
  refine SortedSet.ext fun c => ?_
  rw [SortedSet.mem_union, mem_offending, mem_offending, mem_offending, String.toList_append,
    List.mem_append, or_and_right]

/-- Of a text and of the disallowed characters, only which characters occur matters. -/
theorem offending_congr {other : String} {others : SortedSet Char}
    (htext : ∀ c, c ∈ text.toList ↔ c ∈ other.toList)
    (hdisallowed : ∀ c, c ∈ disallowed ↔ c ∈ others) :
    offending text disallowed = offending other others := by
  refine SortedSet.ext fun c => ?_
  rw [mem_offending, mem_offending, htext, hdisallowed]

/-! ### The message -/

/-- Characters of a set come by ascending code points. -/
theorem pairwise_toNat_lt (s : SortedSet Char) :
    s.toList.Pairwise fun a b => a.toNat < b.toNat := by
  refine s.ascending.imp ?_
  intro a b h
  have hlt : a < b := compareOfLessAndEq_eq_lt.mp h
  rwa [Char.lt_def, UInt32.lt_iff_toNat_lt] at hlt

/-- Some characters as a message lists them. -/
def listing (l : List Char) : String := ", ".intercalate (l.map String.singleton)

/-- What follows the first character of a list begins with the separator, unless the list
ends there. -/
theorem toList_listing_cons (c : Char) (l : List Char) :
    (listing (c :: l)).toList =
      c :: if l = [] then [] else ',' :: ' ' :: (listing l).toList := by
  cases l with
  | nil => simp [listing]
  | cons d rest => simp [listing]

/-- A list of characters can be read back. -/
theorem listing_injective {l m : List Char} (h : listing l = listing m) : l = m := by
  replace h : (listing l).toList = (listing m).toList := congrArg String.toList h
  induction l generalizing m with
  | nil =>
    cases m with
    | nil => rfl
    | cons d m =>
      rw [toList_listing_cons] at h
      cases h
  | cons c l ih =>
    cases m with
    | nil =>
      rw [toList_listing_cons] at h
      cases h
    | cons d m =>
      rw [toList_listing_cons, toList_listing_cons] at h
      obtain ⟨rfl, htail⟩ := List.cons.inj h
      -- Both lists end here, or both go on behind a separator.
      by_cases hl : l = []
      · by_cases hm : m = []
        · rw [hl, hm]
        · rw [if_pos hl, if_neg hm] at htail
          cases htail
      · by_cases hm : m = []
        · rw [if_neg hl, if_pos hm] at htail
          cases htail
        · rw [if_neg hl, if_neg hm] at htail
          rw [ih (List.cons.inj (List.cons.inj htail).2).2]

theorem message_disallowedCharacters (found : SortedSet Char) :
    (Failure.disallowedCharacters found).message =
      "Disallowed characters: " ++ listing found.toList :=
  rfl

theorem message_injective {other : SortedSet Char}
    (h : (Failure.disallowedCharacters found).message =
      (Failure.disallowedCharacters other).message) : found = other := by
  rw [message_disallowedCharacters, message_disallowedCharacters, String.append_right_inj] at h
  rw [← SortedSet.ofList_toList found, listing_injective h, SortedSet.ofList_toList]

end Statement

namespace Settings

variable {s : Settings} {text : String}

theorem review_eq_ok_iff :
    s.review text = .ok () ↔ ∀ c ∈ text.toList, c ∉ s.disallowedCharacters.toList := by
  simp only [← mem_disallowedSet, ← Statement.check_eq_ok_iff, review]
  cases Statement.check text s.disallowedSet with
  | ok u => exact ⟨fun _ => rfl, fun _ => rfl⟩
  | error found => exact iff_of_false nofun nofun

theorem review_eq_error_iff {failure : Failure} :
    s.review text = .error failure ↔
      (∃ c ∈ text.toList, c ∈ s.disallowedCharacters.toList) ∧
        failure = .disallowedCharacters (Statement.offending text s.disallowedSet) := by
  simp only [← mem_disallowedSet]
  rw [review, mapError_eq_error_iff]
  simp only [Statement.check_eq_error_iff]
  constructor
  · rintro ⟨found, ⟨hsome, rfl⟩, rfl⟩
    exact ⟨hsome, rfl⟩
  · rintro ⟨hsome, rfl⟩
    exact ⟨_, ⟨hsome, rfl⟩, rfl⟩

end Settings

open Statement in
/-- **Statements are checked character by character.**  A text passes exactly if it shares
no character with the configured text, and is refused otherwise for all the characters that
both have; where and how often they stand does not matter.  The message lists them by
ascending code points and can be read back.  The characters found in two texts add up, and
a text from which those found in it are deleted passes. -/
theorem statements_are_checked_character_by_character :
    (∀ configured text : String, Settings.review ⟨configured⟩ text = .ok () ↔
      ∀ c ∈ text.toList, c ∉ configured.toList) ∧
    (∀ (configured text : String) (failure : Failure),
      Settings.review ⟨configured⟩ text = .error failure ↔
        (∃ c ∈ text.toList, c ∈ configured.toList) ∧
          ∃ found, failure = .disallowedCharacters found ∧
            ∀ c, c ∈ found ↔ c ∈ text.toList ∧ c ∈ configured.toList) ∧
    (∀ configured reordered text other : String,
      (∀ c, c ∈ configured.toList ↔ c ∈ reordered.toList) →
      (∀ c, c ∈ text.toList ↔ c ∈ other.toList) →
        Settings.review ⟨configured⟩ text = Settings.review ⟨reordered⟩ other) ∧
    (∀ found : SortedSet Char, ∃ l : List Char,
      (Failure.disallowedCharacters found).message =
          "Disallowed characters: " ++ ", ".intercalate (l.map String.singleton) ∧
        (l.Pairwise fun a b => a.toNat < b.toNat) ∧ ∀ c, c ∈ l ↔ c ∈ found) ∧
    (∀ found other : SortedSet Char, found ≠ other →
      (Failure.disallowedCharacters found).message ≠
        (Failure.disallowedCharacters other).message) ∧
    (∀ (a b : String) (disallowed : SortedSet Char),
      offending (a ++ b) disallowed =
        (offending a disallowed).union (offending b disallowed)) ∧
    ∀ (text : String) (disallowed : SortedSet Char),
      check (cleaned text disallowed) disallowed = .ok () := by
  refine ⟨?passes, ?refused, ?alike, ?listed, ?readable, offending_append, check_cleaned⟩
  case passes =>
    intro configured text
    exact Settings.review_eq_ok_iff
  case refused =>
    intro configured text failure
    rw [Settings.review_eq_error_iff]
    refine and_congr_right fun _ => ?_
    have hfound : ∀ c, c ∈ offending text (Settings.disallowedSet ⟨configured⟩) ↔
        c ∈ text.toList ∧ c ∈ configured.toList := fun c => by
      rw [mem_offending, Settings.mem_disallowedSet]
    constructor
    · rintro rfl
      exact ⟨_, rfl, hfound⟩
    · rintro ⟨found, rfl, hmem⟩
      rw [SortedSet.ext fun c => (hmem c).trans (hfound c).symm]
  case alike =>
    intro configured reordered text other hconfigured htext
    have hset : Settings.disallowedSet ⟨configured⟩ = Settings.disallowedSet ⟨reordered⟩ := by
      refine SortedSet.ext fun c => ?_
      rw [Settings.mem_disallowedSet, Settings.mem_disallowedSet]
      exact hconfigured c
    have hfound : offending text (Settings.disallowedSet ⟨configured⟩) =
        offending other (Settings.disallowedSet ⟨configured⟩) :=
      offending_congr htext fun c => Iff.rfl
    rw [Settings.review, Settings.review, check, check, ← hset, hfound]
  case listed =>
    intro found
    exact ⟨found.toList, message_disallowedCharacters found, pairwise_toNat_lt found,
      fun c => SortedSet.mem_toList⟩
  case readable =>
    intro found other hne hmessage
    exact hne (message_injective hmessage)

/-- Disallowed characters that separate characters in the message as well: the two of them
that a text has are found in any order, and are not mistaken for one that they do not have. -/
theorem statements_are_checked_character_by_character_separators :
    let settings : Settings := ⟨"; ,"⟩
    settings.review "a, b" = .error (.disallowedCharacters (Statement.charSet " ,")) ∧
      settings.review "a, b" = Settings.review ⟨",; "⟩ ", ba" ∧
      (Failure.disallowedCharacters (Statement.charSet " ,")).message ≠
        (Failure.disallowedCharacters (Statement.charSet " ,;")).message := by
  intro settings
  obtain ⟨-, hrefused, halike, -, hreadable, -, -⟩ :=
    statements_are_checked_character_by_character
  refine ⟨?_, halike _ _ _ _ ?_ ?_, hreadable _ _ (by decide)⟩
  · refine (hrefused "; ," "a, b" _).mpr ⟨⟨',', by decide, by decide⟩, _, rfl, fun c => ?_⟩
    rw [Statement.charSet, SortedSet.mem_ofList]
    show c ∈ [' ', ','] ↔ c ∈ ['a', ',', ' ', 'b'] ∧ c ∈ [';', ' ', ',']
    grind
  · intro c
    show c ∈ [';', ' ', ','] ↔ c ∈ [',', ';', ' ']
    grind
  · intro c
    show c ∈ ['a', ',', ' ', 'b'] ↔ c ∈ [',', ' ', 'b', 'a']
    grind

end JudgePolicy
