/-
Which settings win.

The settings of the default, the file and the environment are laid over each other, later
ones first.  What comes out for the disallowed characters depends on nothing but the text
that the file *declares* for them and the one that the environment *gives*:

* `layOver_of_plain`, `find?_entriesLaidOver` — a layer whose keys are plain names changes
  the entries under these keys and no others;
* `Yields.declared`, `Yields.given` — what a tree of settings yields after a file and after
  the environment;
* `settingsFile?_eq_none_iff` — when there is no file of settings;
* `loadFrom_eq_some`, `loadFrom_eq_none` — the settings that are loaded, and the failure on a
  file that is no table;
* `settings_follow_their_precedence` — all of this together.

Design notes: an empty text that is declared or given is a text like any other, so presence
is an `Option` throughout, and no text stands for "nothing said".  Only the keys at the root
of a file need be plain: they are read as places, those inside its tables are not.
-/
import JudgePolicy.Proofs.Settings.Keys
import Mathlib.Data.List.TakeWhile
namespace JudgePolicy

theorem Toml.after?_eq_some_iff {start cs rest : List Char} :
    after? start cs = some rest ↔ cs = start ++ rest := by
  induction start generalizing cs with
  | nil => exact ⟨fun h => Option.some.inj h, fun h => congrArg some h⟩
  | cons p start ih =>
    rcases cs with _ | ⟨c, cs⟩
    · simp [after?]
    · by_cases hp : p = c
      · simp [after?, hp, ih]
      · simp [after?, hp, Ne.symm hp]

namespace Setting

/-! ### Layers with plain keys -/

/-- A key out of letters, digits, `_` and `-`. -/
def IsPlainKey (key : String) : Prop :=
  ∀ c ∈ key.toList,
    ('a' ≤ c ∧ c ≤ 'z') ∨ ('A' ≤ c ∧ c ≤ 'Z') ∨ ('0' ≤ c ∧ c ≤ '9') ∨ c = '_' ∨ c = '-'

theorem isNameChar_iff {c : Char} :
    isNameChar c = true ↔
      ('a' ≤ c ∧ c ≤ 'z') ∨ ('A' ≤ c ∧ c ≤ 'Z') ∨ ('0' ≤ c ∧ c ≤ '9') ∨ c = '_' ∨ c = '-' := by
  simp only [isNameChar, Char.le_def, UInt32.le_iff_toNat_le, Bool.or_eq_true,
    Bool.and_eq_true, decide_eq_true_eq, beq_iff_eq, or_assoc]
  exact Iff.rfl

theorem isPlainKey_iff {key : String} : IsPlainKey key ↔ key.toList.all isNameChar = true := by
  rw [List.all_eq_true]
  exact forall₂_congr fun _ _ => isNameChar_iff.symm

/-- A plain key names the entry with that key. -/
theorem Place.named_of_isPlainKey {key : String} (h : IsPlainKey key) :
    Place.named key = ⟨key, []⟩ := by
  cases hkey : key.toList with
  | nil =>
    rw [Place.named, Place.ofText?, hkey]
    rfl
  | cons c rest =>
    have hall : ∀ d ∈ c :: rest, isNameChar d = true := by
      rw [← hkey]
      exact List.all_eq_true.mp (isPlainKey_iff.mp h)
    have hread : readName? (c :: rest) = some (key, []) := by
      rw [readName?, List.takeWhile_eq_self_iff.mpr hall, List.dropWhile_eq_nil_iff.mpr hall]
      show some (String.ofList (c :: rest), []) = some (key, [])
      rw [← hkey, String.ofList_toList]
    rw [Place.named, Place.ofText?, hkey, hread]
    rfl

/-- Entries laid over others change what they have keys for, and nothing else. -/
theorem find?_entriesLaidOver {new : Entries} (distinct : (new.map (·.1)).Nodup)
    (old : Entries) (key : String) :
    find? key (entriesLaidOver new old) =
      match find? key new with
      | none => find? key old
      | some v => some (laidOver v ((find? key old).getD null)) := by
  induction new generalizing old with
  | nil => rfl
  | cons e rest ih =>
    obtain ⟨k, v⟩ := e
    obtain ⟨hk, hrest⟩ := List.nodup_cons.mp distinct
    rw [entriesLaidOver, ih hrest]
    by_cases hkey : k = key
    · subst hkey
      -- The key does not come again.
      have hnone : find? k rest = none := find?_eq_none_iff.mpr hk
      rw [hnone, find?_putEntry_self, find?, if_pos rfl]
    · rw [find?_putEntry_of_ne hkey, find?, if_neg hkey]

end Setting

namespace Settings

open Setting

/-- A layer whose keys are plain is laid over a table entry by entry. -/
theorem layOver_of_plain {new : Entries} (plain : ∀ e ∈ new, IsPlainKey e.1) (old : Entries) :
    layOver (.table old) new = .table (entriesLaidOver new old) := by
  induction new generalizing old with
  | nil => rfl
  | cons e rest ih =>
    obtain ⟨hkey, hrest⟩ := List.forall_mem_cons.mp plain
    have hstep : layOver (.table old) (e :: rest) =
        layOver (.table (putEntry e.1 (laidOver e.2) old)) rest := by
      rw [layOver, List.foldl_cons, Place.named_of_isPlainKey hkey]
      rfl
    rw [hstep, ih hrest, entriesLaidOver]

/-! ### What a tree of settings yields -/

/-- The text under which the disallowed characters are found in a tree of settings. -/
def Yields (root : Setting) (text : String) : Prop :=
  ∃ problem, Setting.find? "problem" root.entries = some (.table problem) ∧
    Setting.find? "disallowed_characters" problem = some (.text text)

theorem yields_defaults : Yields defaults Statement.defaultDisallowed := ⟨_, rfl, rfl⟩

theorem ofTree?_of_yields {root : Setting} {text : String} (h : Yields root text) :
    ofTree? root = some ⟨text⟩ := by
  obtain ⟨problem, hproblem, htext⟩ := h
  rw [ofTree?, hproblem]
  show ofSection? (.table problem) = some ⟨text⟩
  rw [ofSection?, htext]
  rfl

/-! ### What a file declares -/

/-- What the entries of a file declare for the disallowed characters: nothing, or a text. -/
inductive Declares (entries : Entries) : Option String → Prop where
  | noProblem (absent : Setting.find? "problem" entries = none) : Declares entries none
  | noText {problem : Entries}
      (found : Setting.find? "problem" entries = some (.table problem))
      (absent : Setting.find? "disallowed_characters" problem = none) : Declares entries none
  | text {problem : Entries} {text : String}
      (found : Setting.find? "problem" entries = some (.table problem))
      (said : Setting.find? "disallowed_characters" problem = some (.text text)) :
      Declares entries (some text)

/-- Entries with plain keys change what is yielded to what they declare, if anything. -/
theorem Yields.declared {old entries : Entries} {before : String} {declared : Option String}
    (h : Yields (.table old) before) (plain : ∀ e ∈ entries, IsPlainKey e.1)
    (keyed : (Setting.table entries).Keyed) (declares : Declares entries declared) :
    Yields (layOver (.table old) entries) (declared.getD before) := by
  obtain ⟨known, hknown, htext⟩ := h
  have hold : Setting.find? "problem" old = some (.table known) := hknown
  have hdistinct := (keyed_table_iff.mp keyed).distinct
  rw [layOver_of_plain plain]
  -- A table that is declared is laid over the section there is, entry by entry again.
  have hmerged {problem : Entries}
      (found : Setting.find? "problem" entries = some (.table problem)) :
      Setting.find? "problem" (entriesLaidOver entries old) =
        some (.table (entriesLaidOver problem known)) := by
    rw [find?_entriesLaidOver hdistinct, found, hold]
    rfl
  have hinner {problem : Entries}
      (found : Setting.find? "problem" entries = some (.table problem)) :
      (problem.map (·.1)).Nodup :=
    (keyed_table_iff.mp (keyed.of_find? found)).distinct
  cases declares with
  | noProblem hnone =>
    refine ⟨known, ?_, htext⟩
    show Setting.find? "problem" (entriesLaidOver entries old) = _
    rw [find?_entriesLaidOver hdistinct, hnone]
    exact hold
  | noText found hnone =>
    refine ⟨_, hmerged found, ?_⟩
    rw [find?_entriesLaidOver (hinner found), hnone]
    exact htext
  | text found hsome =>
    refine ⟨_, hmerged found, ?_⟩
    rw [find?_entriesLaidOver (hinner found), hsome]
    rfl

/-! ### Which file there is -/

theorem mem_placesWithEnding {formats : List Format} {path place : String} {format : Format} :
    (format, place) ∈ placesWithEnding formats path ↔
      format ∈ formats ∧ ∃ ending ∈ format.endings, withEnding? path ending = some place := by
  rw [placesWithEnding, List.mem_flatMap]
  constructor
  · rintro ⟨tried, htried, hplace⟩
    obtain ⟨ending, hending, hnamed⟩ := List.mem_filterMap.mp hplace
    obtain ⟨there, hthere, heq⟩ := Option.map_eq_some_iff.mp hnamed
    obtain ⟨rfl, rfl⟩ := Prod.mk.inj heq
    exact ⟨htried, ending, hending, hthere⟩
  · rintro ⟨hformat, ending, hending, hplace⟩
    refine ⟨format, hformat, List.mem_filterMap.mpr ⟨ending, hending, ?_⟩⟩
    rw [hplace]
    rfl

/-- No file stands where a path says, with or without the ending of a format. -/
structure Disk.Lacks (disk : Disk) (path : String) : Prop where
  bare : disk.file? (disk.absolute path) = none
  ended : ∀ (format : Format), ∀ ending ∈ format.endings, ∀ place,
    withEnding? (disk.absolute path) ending = some place → disk.file? place = none

/-- A file stands there, but its ending is that of no format, or it cannot be read. -/
def Disk.PassesOver (disk : Disk) (library : Library) (path : String) : Prop :=
  ∃ file, disk.locate? library.formats path = some file ∧
    (file.format? = none ∨ file.text? = none)

theorem locate?_eq_none_iff {library : Library} {disk : Disk} {path : String} :
    disk.locate? library.formats path = none ↔ disk.Lacks path := by
  rw [Disk.locate?]
  split
  · next text? hfile =>
    refine iff_of_false (by simp) fun h => ?_
    rw [h.bare] at hfile
    cases hfile
  · next hfile =>
    rw [List.findSome?_eq_none_iff]
    constructor
    · intro h
      refine ⟨hfile, fun format ending hending place hplace => ?_⟩
      exact Option.map_eq_none_iff.mp (h (format, place)
        (mem_placesWithEnding.mpr ⟨library.complete format, ending, hending, hplace⟩))
    · rintro h ⟨format, place⟩ hmem
      obtain ⟨-, ending, hending, hplace⟩ := mem_placesWithEnding.mp hmem
      exact Option.map_eq_none_iff.mpr (h.ended format ending hending place hplace)

/-- Without a file of settings, the file is missing or is passed over. -/
theorem settingsFile?_eq_none_iff {library : Library} {disk : Disk} {path : String} :
    disk.settingsFile? library.formats path = none ↔
      disk.Lacks path ∨ disk.PassesOver library path := by
  have hlacks : disk.locate? library.formats path = none ↔ disk.Lacks path := locate?_eq_none_iff
  rw [← hlacks, Disk.PassesOver, Disk.settingsFile?]
  cases hfile : disk.locate? library.formats path with
  | none => exact iff_of_true rfl (.inl rfl)
  | some file =>
    obtain ⟨format?, text?⟩ := file
    cases format? with
    | none => exact iff_of_true rfl (.inr ⟨_, rfl, .inl rfl⟩)
    | some format =>
      cases text? with
      | none => exact iff_of_true rfl (.inr ⟨_, rfl, .inr rfl⟩)
      | some text => simp

/-- What the file that a path names declares: nothing without a file or with one that is passed
over, and for a table with plain keys what its entries declare. -/
inductive FileDeclares (library : Library) (disk : Disk) (path : String) : Option String → Prop
    where
  | missing (absent : disk.Lacks path) : FileDeclares library disk path none
  | passedOver (unusable : disk.PassesOver library path) : FileDeclares library disk path none
  | file {format : Format} {text : String} {entries : Entries} {declared : Option String}
      (found : disk.settingsFile? library.formats path = some (format, text))
      (parses : library.parse? format text = some (.table entries))
      (plain : ∀ e ∈ entries, IsPlainKey e.1) (declares : Declares entries declared) :
      FileDeclares library disk path declared

theorem fileLayer_of_fileDeclares {library : Library} {disk : Disk} {path : String}
    {declared : Option String} (h : FileDeclares library disk path declared) :
    ∃ entries, fileLayer library disk path = some entries ∧
      Yields (layOver defaults entries) (declared.getD Statement.defaultDisallowed) := by
  have hnothing (hnone : disk.settingsFile? library.formats path = none) :
      fileLayer library disk path = some [] := by
    rw [fileLayer, hnone]
  cases h with
  | missing absent =>
    exact ⟨[], hnothing (settingsFile?_eq_none_iff.mpr (.inl absent)), yields_defaults⟩
  | passedOver unusable =>
    exact ⟨[], hnothing (settingsFile?_eq_none_iff.mpr (.inr unusable)), yields_defaults⟩
  | @file format text entries _ found parses plain declares =>
    refine ⟨entries, ?_, yields_defaults.declared plain (Library.keyed_of_parse? parses) declares⟩
    rw [fileLayer, found]
    simp only [parses]

/-! ### What the environment gives -/

/-- The name of a variable without regard to case.  Letters beyond ASCII stay as they are: none of
them has a lower-case form that is part of the names compared here. -/
def lowered (name : String) : String := String.ofList (name.toList.map Char.toLower)

/-- The variable for the disallowed characters. -/
def disallowedVariable : String := "judge__problem__disallowed_characters"

/-- What the environment gives for the disallowed characters, if no other variable is a
setting: nothing, or the value of their variable. -/
inductive EnvironmentGives (environment : List (String × String)) : Option String → Prop where
  | nothing (noSetting : ∀ v ∈ environment, ¬ variableStart.toList <+: (lowered v.1).toList) :
      EnvironmentGives environment none
  | value {name value : String} (mem : (name, value) ∈ environment)
      (named : lowered name = disallowedVariable)
      (only : ∀ v ∈ environment, variableStart.toList <+: (lowered v.1).toList →
        v = (name, value)) :
      EnvironmentGives environment (some value)

theorem variableKey?_eq_none {name : String}
    (h : ¬ variableStart.toList <+: (lowered name).toList) : variableKey? name = none := by
  rw [variableKey?, Option.map_eq_none_iff, Option.eq_none_iff_forall_ne_some]
  intro rest hrest
  refine h ⟨rest, ?_⟩
  rw [lowered, String.toList_ofList]
  exact (Toml.after?_eq_some_iff.mp hrest).symm

theorem variableKey?_of_disallowed {name : String} (h : lowered name = disallowedVariable) :
    variableKey? name = some "problem.disallowed_characters" := by
  have hchars : name.toList.map Char.toLower = disallowedVariable.toList := by
    rw [← h, lowered, String.toList_ofList]
  rw [variableKey?, hchars]
  rfl

theorem mem_environmentLayer {environment : List (String × String)} {key : String} {s : Setting} :
    (key, s) ∈ environmentLayer environment ↔
      ∃ v ∈ environment, variableKey? v.1 = some key ∧ s = .text v.2 := by
  rw [environmentLayer, List.mem_filterMap]
  refine exists_congr fun v => and_congr_right fun _ => ?_
  rw [Option.map_eq_some_iff]
  constructor
  · rintro ⟨k, hk, heq⟩
    obtain ⟨rfl, rfl⟩ := Prod.mk.inj heq
    exact ⟨hk, rfl⟩
  · rintro ⟨hk, rfl⟩
    exact ⟨key, hk, rfl⟩

theorem yields_assign (root : Setting) (text : String) :
    Yields (assign (.named "problem.disallowed_characters") (.text text) root) text := by
  have hplace : Place.named "problem.disallowed_characters" =
      ⟨"problem", [.key "disallowed_characters"]⟩ := by decide
  rw [hplace]
  exact ⟨_, find?_putEntry_self _ _ _, find?_putEntry_self _ _ _⟩

/-- Of entries that all put one text at the same place, one is enough. -/
theorem yields_layOver {text : String} {entries : Entries} (nonempty : entries ≠ [])
    (same : ∀ e ∈ entries, e = ("problem.disallowed_characters", .text text)) (root : Setting) :
    Yields (layOver root entries) text := by
  induction entries generalizing root with
  | nil => exact absurd rfl nonempty
  | cons e rest ih =>
    obtain ⟨rfl, hrest⟩ := List.forall_mem_cons.mp same
    by_cases hmore : rest = []
    · subst hmore
      exact yields_assign root text
    · exact ih hmore hrest _

theorem Yields.given {root : Setting} {before : String} {environment : List (String × String)}
    {given : Option String} (h : Yields root before) (gives : EnvironmentGives environment given) :
    Yields (layOver root (environmentLayer environment)) (given.getD before) := by
  cases gives with
  | nothing noSetting =>
    have hnone : environmentLayer environment = [] := by
      refine List.filterMap_eq_nil_iff.mpr fun v hv => ?_
      rw [variableKey?_eq_none (noSetting v hv)]
      rfl
    rw [hnone]
    exact h
  | @value name value mem named only =>
    refine yields_layOver ?_ ?_ root
    · exact List.ne_nil_of_mem
        (mem_environmentLayer.mpr ⟨_, mem, variableKey?_of_disallowed named, rfl⟩)
    · rintro ⟨key, s⟩ he
      obtain ⟨v, hv, hkey, rfl⟩ := mem_environmentLayer.mp he
      -- A variable that names a place at all is the one for the disallowed characters.
      have hstart : variableStart.toList <+: (lowered v.1).toList := by
        by_contra hnot
        rw [variableKey?_eq_none hnot] at hkey
        cases hkey
      obtain rfl := only v hv hstart
      rw [variableKey?_of_disallowed named] at hkey
      obtain rfl := Option.some.inj hkey
      rfl

/-! ### What is loaded -/

theorem loadFrom_eq_some {library : Library} {disk : Disk} {path : String}
    {declared : Option String} {environment : List (String × String)} {given : Option String}
    (declares : FileDeclares library disk path declared)
    (gives : EnvironmentGives environment given) :
    loadFrom library disk environment path =
      some ⟨(given.or declared).getD Statement.defaultDisallowed⟩ := by
  obtain ⟨entries, hlayer, hyields⟩ := fileLayer_of_fileDeclares declares
  rw [loadFrom, hlayer, Option.getD_or]
  exact ofTree?_of_yields (hyields.given gives)

theorem loadFrom_eq_none {library : Library} {disk : Disk} {path : String} {format : Format}
    {text : String} (found : disk.settingsFile? library.formats path = some (format, text))
    (noTable : ∀ entries, library.parse? format text ≠ some (.table entries))
    (environment : List (String × String)) : loadFrom library disk environment path = none := by
  have hlayer : fileLayer library disk path = none := by
    rw [fileLayer, found]
    -- By `noTable`, only the last alternative is left.
    simp only
  rw [loadFrom, hlayer]
  rfl

end Settings

section Precedence

open Settings

/-- **What the environment gives wins over what the file declares, and that over the
default.**  An empty text wins like any other, nothing else in the file or the environment
makes a difference, and a file that is no table fails whatever the environment gives.  Every
path names such a file of settings, or else one that is passed over, or none: then nothing is
declared, as the file is optional. -/
theorem settings_follow_their_precedence :
    (∀ {library disk path declared environment given},
      FileDeclares library disk path declared → EnvironmentGives environment given →
        ∃ settings, loadFrom library disk environment path = some settings ∧
          ∀ c, c ∈ settings.disallowedSet ↔
            c ∈ ((given.or declared).getD Statement.defaultDisallowed).toList) ∧
    (∀ {library disk path library' disk' path' declared environment environment' given},
      FileDeclares library disk path declared → FileDeclares library' disk' path' declared →
        EnvironmentGives environment given → EnvironmentGives environment' given →
          loadFrom library disk environment path = loadFrom library' disk' environment' path') ∧
    (∀ {library : Library} {disk : Disk} {path format text},
      disk.settingsFile? library.formats path = some (format, text) →
        (∀ entries, library.parse? format text ≠ some (.table entries)) →
          ∀ environment, loadFrom library disk environment path = none) ∧
    (∀ (library : Library) (disk : Disk) (path : String),
      disk.Lacks path ∨ disk.PassesOver library path ∨
        ∃ format text, disk.settingsFile? library.formats path = some (format, text)) := by
  refine ⟨?loads, ?nothingElse, ?fails, ?cases⟩
  case loads =>
    intro library disk path declared environment given hfile henvironment
    refine ⟨_, loadFrom_eq_some hfile henvironment, fun c => ?_⟩
    exact mem_disallowedSet
  case nothingElse =>
    intro library disk path library' disk' path' declared environment environment' given hfile
      hfile' henvironment henvironment'
    rw [loadFrom_eq_some hfile henvironment, loadFrom_eq_some hfile' henvironment']
  case fails =>
    intro library disk path format text hfound hnoTable environment
    exact loadFrom_eq_none hfound hnoTable environment
  case cases =>
    intro library disk path
    rw [← or_assoc, ← settingsFile?_eq_none_iff]
    cases disk.settingsFile? library.formats path with
    | none => exact .inl rfl
    | some found => exact .inr ⟨found.1, found.2, rfl⟩

/-- A file that declares `x` and `y`, after a key that is no setting of the policy. -/
def titledDisk : Disk :=
  .holding [("config.toml", "title = 1\n[problem]\ndisallowed_characters = \"xy\"\n")]

/-- A file in another format that declares the same, after another key in the section. -/
def limitedDisk : Disk :=
  .holding [("sub/rules.json",
    "\x7b\"problem\": \x7b\"limit\": 3, \"disallowed_characters\": \"xy\"\x7d\x7d")]

theorem fileDeclares_titledDisk : FileDeclares .plain titledDisk "config" (some "xy") := by
  have hparses : Library.plain.parse? .toml
      "title = 1\n[problem]\ndisallowed_characters = \"xy\"\n" =
      some (.table [("title", .integer 1),
        ("problem", .table [("disallowed_characters", .text "xy")])]) := by decide +kernel
  refine .file (by decide +kernel) hparses ?_ (.text rfl rfl)
  intro e he
  rcases List.mem_pair.mp he with rfl | rfl
  · exact Setting.isPlainKey_iff.mpr rfl
  · exact Setting.isPlainKey_iff.mpr rfl

theorem fileDeclares_limitedDisk :
    FileDeclares .plain limitedDisk "./sub/../sub/rules.json" (some "xy") := by
  have hparses : Library.plain.parse? .json
      "\x7b\"problem\": \x7b\"limit\": 3, \"disallowed_characters\": \"xy\"\x7d\x7d" =
      some (.table [("problem", .table [("limit", .integer 3),
        ("disallowed_characters", .text "xy")])]) := by decide +kernel
  refine .file (by decide +kernel) hparses ?_ (.text rfl rfl)
  intro e he
  obtain rfl := List.mem_singleton.mp he
  exact Setting.isPlainKey_iff.mpr rfl

theorem settings_follow_their_precedence_emptied :
    let emptied := [("PATH", "/bin"), ("Judge__Problem__Disallowed_Characters", "")]
    (∃ settings, loadFrom .plain titledDisk emptied "config" = some settings ∧
        ∀ c, c ∉ settings.disallowedSet) ∧
      loadFrom .plain titledDisk [] "config" =
        loadFrom .plain limitedDisk [("HOME", "/")] "./sub/../sub/rules.json" ∧
      loadFrom .plain (.holding [("config.json", "[]")]) emptied "config" = none := by
  intro emptied
  obtain ⟨hloads, hnothingElse, hfails, -⟩ := settings_follow_their_precedence
  refine ⟨?_, ?_, ?_⟩
  · have hemptied : EnvironmentGives emptied (some "") := by
      refine .value (List.mem_cons_of_mem _ List.mem_cons_self) (by decide) ?_
      intro v hv hstart
      rcases List.mem_pair.mp hv with rfl | rfl
      · exact absurd hstart (by decide)
      · rfl
    obtain ⟨settings, hload, hset⟩ := hloads fileDeclares_titledDisk hemptied
    exact ⟨settings, hload, fun c hc => List.not_mem_nil ((hset c).mp hc)⟩
  · refine hnothingElse fileDeclares_titledDisk fileDeclares_limitedDisk (.nothing nofun)
      (.nothing ?_)
    intro v hv
    obtain rfl := List.mem_singleton.mp hv
    decide
  · have hfound : (Disk.holding [("config.json", "[]")]).settingsFile? Library.plain.formats
        "config" = some (.json, "[]") := by decide +kernel
    refine hfails hfound ?_ emptied
    intro entries
    have hparse : Library.plain.parse? .json "[]" = some (.array []) := by decide +kernel
    rw [hparse]
    exact nofun

/-- Two files that write no table, and yet do not fail: one that no format can read and whose
ending is that of none, and one that cannot be read at all. -/
theorem passed_over_files_load_the_default :
    let unnamed : Disk := .holding [("policy.conf", "problem = [")]
    let locked : Disk :=
      ⟨"/", fun place => if place = "/config.toml" then some none else none⟩
    (unnamed.file? (unnamed.absolute "policy.conf") = some (some "problem = [") ∧
      (∀ format, Library.plain.parse? format "problem = [" = none) ∧
      loadFrom .plain unnamed [] "policy.conf" = some ⟨Statement.defaultDisallowed⟩) ∧
    (locked.file? (locked.absolute "config.toml") = some none ∧
      loadFrom .plain locked [] "config.toml" = some ⟨Statement.defaultDisallowed⟩) := by
  intro unnamed locked
  have hunparsed (format : Format) : Library.plain.parse? format "problem = [" = none := by
    cases format with
    | toml => decide +kernel
    | json => decide +kernel
    | _ => rfl
  exact ⟨⟨by decide +kernel, hunparsed, by decide +kernel⟩, by decide +kernel, by decide +kernel⟩

end Precedence

end JudgePolicy
