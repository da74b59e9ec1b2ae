/-
No table of settings has a key twice.

The parsers of TOML and JSON build tables key by key, and each step leaves the keys
distinct, so nothing that is read from a file has a key twice, at any depth:

* `hasDistinctKeys_putEntry`, `keepsAll_changeNode?` — changing what is under a key leaves
  the keys of a table distinct;
* `keyed_of_ofJson?` — the settings of a JSON value;
* `keyed_of_value?`, `keyed_of_statements?` — the values that a TOML document writes;
* `Draft.keyed_of_run?`, `keyed_of_build?` — its tables, statement by statement;
* `Library.keyed_of_parse?` — all formats.

Design notes: the tables of a document are changed through functions on optional nodes, one
inside the other along a path.  `Keeps` and `KeepsAll` say that such a function keeps the
keys distinct, so each level of a path needs one lemma, whatever happens at its end.
-/
import JudgePolicy.Settings.Layers
import Mathlib.Data.List.Nodup
namespace JudgePolicy

/-- No key comes twice, and all values are good. -/
structure HasDistinctKeys {α : Type} (Good : α → Prop) (entries : List (String × α)) :
    Prop where
  distinct : (entries.map (·.1)).Nodup
  good : ∀ e ∈ entries, Good e.2

namespace HasDistinctKeys

variable {α : Type} {Good : α → Prop} {entries rest : List (String × α)} {key : String} {a : α}

theorem nil : HasDistinctKeys Good ([] : List (String × α)) := ⟨.nil, nofun⟩

theorem cons_iff :
    HasDistinctKeys Good ((key, a) :: rest) ↔
      key ∉ rest.map (·.1) ∧ Good a ∧ HasDistinctKeys Good rest := by
  constructor
  · rintro ⟨hdistinct, hgood⟩
    obtain ⟨hkey, hrest⟩ := List.nodup_cons.mp hdistinct
    obtain ⟨ha, hall⟩ := List.forall_mem_cons.mp hgood
    exact ⟨hkey, ha, hrest, hall⟩
  · rintro ⟨hkey, ha, hrest, hall⟩
    exact ⟨List.nodup_cons.mpr ⟨hkey, hrest⟩, List.forall_mem_cons.mpr ⟨ha, hall⟩⟩

end HasDistinctKeys

namespace Setting

theorem keyed_table_iff {entries : Entries} :
    (table entries).Keyed ↔ HasDistinctKeys Keyed entries := by
  constructor
  · rintro (_ | _ | _ | _ | _ | _ | ⟨hdistinct, hgood⟩)
    exact ⟨hdistinct, hgood⟩
  · rintro ⟨hdistinct, hgood⟩
    exact .table hdistinct hgood

theorem find?_eq_none_iff {key : String} {entries : Entries} :
    find? key entries = none ↔ key ∉ entries.map (·.1) := by
  induction entries with
  | nil => simp [find?]
  | cons e rest ih =>
    obtain ⟨k, v⟩ := e
    by_cases hk : k = key
    · simp [find?, hk]
    · simp [find?, hk, ih, Ne.symm hk]

theorem Keyed.of_find? {entries : Entries} {key : String} {s : Setting}
    (h : (Setting.table entries).Keyed) (hs : find? key entries = some s) : s.Keyed := by
  rw [keyed_table_iff] at h
  induction entries with
  | nil => cases hs
  | cons e rest ih =>
    obtain ⟨k, v⟩ := e
    obtain ⟨-, hv, hrest⟩ := HasDistinctKeys.cons_iff.mp h
    rw [find?] at hs
    by_cases hk : k = key
    · rw [if_pos hk] at hs
      obtain rfl := Option.some.inj hs
      exact hv
    · rw [if_neg hk] at hs
      exact ih hrest hs

/-! ### JSON -/

/-- A good setting put under a key leaves the keys distinct. -/
theorem hasDistinctKeys_putEntry {entries : Entries} {key : String} {s : Setting}
    (h : HasDistinctKeys Keyed entries) (hs : s.Keyed) :
    HasDistinctKeys Keyed (putEntry key (fun _ => s) entries) := by
  induction entries with
  | nil => exact HasDistinctKeys.cons_iff.mpr ⟨List.not_mem_nil, hs, .nil⟩
  | cons e rest ih =>
    obtain ⟨k, v⟩ := e
    obtain ⟨hk, hv, hrest⟩ := HasDistinctKeys.cons_iff.mp h
    rw [putEntry]
    by_cases heq : k = key
    · rw [if_pos heq]
      exact HasDistinctKeys.cons_iff.mpr ⟨hk, hs, hrest⟩
    · rw [if_neg heq]
      refine HasDistinctKeys.cons_iff.mpr ⟨?_, hv, ih hrest⟩
      rw [← find?_eq_none_iff] at hk ⊢
      rwa [find?_putEntry_of_ne (Ne.symm heq)]

end Setting

namespace Settings

open Setting

mutual

/-- The settings of a JSON value have no key twice. -/
theorem keyed_of_ofJson? (j : Json) {s : Setting} (h : ofJson? j = some s) : s.Keyed := by
  cases j with
  | null =>
    obtain rfl := Option.some.inj h
    exact .null
  | bool b =>
    obtain rfl := Option.some.inj h
    exact .bool b
  | number n =>
    rw [ofJson?] at h
    split at h
    · obtain rfl := Option.some.inj h
      exact .integer _
    · split at h
      · obtain rfl := Option.some.inj h
        exact .float _
      · cases h
  | text t =>
    rw [ofJson?] at h
    obtain ⟨t, -, rfl⟩ := Option.map_eq_some_iff.mp h
    exact .text t
  | array elements =>
    rw [ofJson?] at h
    obtain ⟨l, hl, rfl⟩ := Option.map_eq_some_iff.mp h
    exact .array (keyed_of_ofJsonElements? elements hl)
  | object members =>
    rw [ofJson?] at h
    obtain ⟨entries, hentries, rfl⟩ := Option.map_eq_some_iff.mp h
    exact keyed_table_iff.mpr (hasDistinctKeys_of_ofJsonMembers? members .nil hentries)

theorem keyed_of_ofJsonElements? (elements : List Json) {l : List Setting}
    (h : ofJsonElements? elements = some l) : ∀ s ∈ l, s.Keyed := by
  cases elements with
  | nil =>
    obtain rfl := Option.some.inj h
    exact nofun
  | cons j rest =>
    simp only [ofJsonElements?, Option.bind_eq_bind, Option.bind_eq_some_iff] at h
    obtain ⟨s, hs, more, hmore, hl⟩ := h
    obtain rfl := Option.some.inj hl
    exact List.forall_mem_cons.mpr ⟨keyed_of_ofJson? j hs, keyed_of_ofJsonElements? rest hmore⟩

theorem hasDistinctKeys_of_ofJsonMembers? (members : List (Option String × Json))
    {entries written : Entries} (hentries : HasDistinctKeys Keyed entries)
    (h : ofJsonMembers? members entries = some written) : HasDistinctKeys Keyed written := by
  cases members with
  | nil =>
    obtain rfl := Option.some.inj h
    exact hentries
  | cons member rest =>
    obtain ⟨k, j⟩ := member
    simp only [ofJsonMembers?, Option.bind_eq_bind, Option.bind_eq_some_iff] at h
    obtain ⟨k, -, s, hs, hwritten⟩ := h
    exact hasDistinctKeys_of_ofJsonMembers? rest
      (hasDistinctKeys_putEntry hentries (keyed_of_ofJson? j hs)) hwritten

end

end Settings

/-! ### TOML -/

namespace Toml

namespace Node

/-- No table of a document under construction has a key twice, at any depth. -/
inductive Keyed : Node → Prop where
  | value {s : Setting} (good : s.Keyed) : Keyed (.value s)
  | table {origin : Origin} {entries : Nodes} (distinct : (entries.map (·.1)).Nodup)
      (good : ∀ e ∈ entries, Keyed e.2) : Keyed (.table origin entries)
  | tables {elements : List Node} (good : ∀ n ∈ elements, Keyed n) : Keyed (.tables elements)

theorem keyed_table_iff {origin : Origin} {entries : Nodes} :
    (table origin entries).Keyed ↔ HasDistinctKeys Keyed entries := by
  constructor
  · rintro (_ | ⟨hdistinct, hgood⟩ | _)
    exact ⟨hdistinct, hgood⟩
  · rintro ⟨hdistinct, hgood⟩
    exact .table hdistinct hgood

theorem keyed_tables_iff {elements : List Node} :
    (tables elements).Keyed ↔ ∀ n ∈ elements, n.Keyed := by
  constructor
  · rintro (_ | _ | hgood)
    exact hgood
  · exact .tables

/-- A change of what may be under a key makes something good out of what is good. -/
def Keeps (change : Option Node → Option Node) : Prop :=
  ∀ {before : Option Node} {after : Node}, (∀ n, before = some n → n.Keyed) →
    change before = some after → after.Keyed

/-- A change of the entries of a table leaves their keys distinct. -/
def KeepsAll (change : Nodes → Option Nodes) : Prop :=
  ∀ {before after : Nodes}, HasDistinctKeys Keyed before →
    change before = some after → HasDistinctKeys Keyed after

/-! #### Along a path -/

section Path

variable {change : Option Node → Option Node} {changeAll : Nodes → Option Nodes}

/-- A change under a key adds no key but that. -/
theorem mem_keys_of_changeNode? {key k : String} {before after : Nodes}
    (h : changeNode? key change before = some after) (hk : k ∈ after.map (·.1)) :
    k ∈ before.map (·.1) ∨ k = key := by
  induction before generalizing after with
  | nil =>
    obtain ⟨n, -, rfl⟩ := Option.map_eq_some_iff.mp h
    exact .inr (List.mem_singleton.mp hk)
  | cons e rest ih =>
    obtain ⟨k', m⟩ := e
    rw [changeNode?] at h
    split at h
    · obtain ⟨n, -, rfl⟩ := Option.map_eq_some_iff.mp h
      exact .inl hk
    · obtain ⟨changed, hchanged, rfl⟩ := Option.map_eq_some_iff.mp h
      rw [List.map_cons, List.mem_cons] at hk ⊢
      rcases hk with rfl | hk
      · exact .inl (.inl rfl)
      · exact (ih hchanged hk).imp_left .inr

theorem keepsAll_changeNode? (key : String) (h : Keeps change) :
    KeepsAll (changeNode? key change) := by
  intro before after hbefore hafter
  induction before generalizing after with
  | nil =>
    obtain ⟨n, hn, rfl⟩ := Option.map_eq_some_iff.mp hafter
    refine HasDistinctKeys.cons_iff.mpr ⟨List.not_mem_nil, h ?_ hn, .nil⟩
    rintro _ ⟨⟩
  | cons e rest ih =>
    obtain ⟨k, m⟩ := e
    obtain ⟨hk, hm, hrest⟩ := HasDistinctKeys.cons_iff.mp hbefore
    rw [changeNode?] at hafter
    split at hafter
    · obtain ⟨n, hn, rfl⟩ := Option.map_eq_some_iff.mp hafter
      refine HasDistinctKeys.cons_iff.mpr ⟨hk, h ?_ hn, hrest⟩
      rintro _ ⟨⟩
      exact hm
    · next hne =>
      obtain ⟨changed, hchanged, rfl⟩ := Option.map_eq_some_iff.mp hafter
      refine HasDistinctKeys.cons_iff.mpr ⟨fun hmem => ?_, hm, ih hrest hchanged⟩
      rcases mem_keys_of_changeNode? hchanged hmem with hin | heq
      · exact hk hin
      · exact hne heq

theorem keyed_of_changeLast? (h : KeepsAll changeAll) {before after : List Node}
    (hbefore : ∀ n ∈ before, n.Keyed) (hafter : changeLast? changeAll before = some after) :
    ∀ n ∈ after, n.Keyed := by
  fun_induction changeLast? changeAll before generalizing after with
  | case1 => cases hafter
  | case2 origin entries =>
    obtain ⟨changed, hchanged, rfl⟩ := Option.map_eq_some_iff.mp hafter
    have hentries := keyed_table_iff.mp (hbefore _ List.mem_cons_self)
    exact List.forall_mem_singleton.mpr (keyed_table_iff.mpr (h hentries hchanged))
  | case3 => cases hafter
  | case4 n rest _ _ ih =>
    obtain ⟨changed, hchanged, rfl⟩ := Option.map_eq_some_iff.mp hafter
    obtain ⟨hn, hrest⟩ := List.forall_mem_cons.mp hbefore
    exact List.forall_mem_cons.mpr ⟨hn, ih hrest hchanged⟩

theorem keeps_goInto? (dotted : Bool) (h : KeepsAll changeAll) :
    Keeps (goInto? dotted changeAll) := by
  intro before after hbefore hafter
  cases before with
  | none =>
    obtain ⟨entries, hentries, rfl⟩ := Option.map_eq_some_iff.mp hafter
    exact keyed_table_iff.mpr (h .nil hentries)
  | some n =>
    have hn : n.Keyed := hbefore n rfl
    cases n with
    | value s => cases hafter
    | table origin entries =>
      rw [goInto?] at hafter
      split at hafter
      · cases hafter
      · obtain ⟨changed, hchanged, rfl⟩ := Option.map_eq_some_iff.mp hafter
        exact keyed_table_iff.mpr (h (keyed_table_iff.mp hn) hchanged)
    | tables elements =>
      rw [goInto?] at hafter
      split at hafter
      · cases hafter
      · obtain ⟨changed, hchanged, rfl⟩ := Option.map_eq_some_iff.mp hafter
        exact keyed_tables_iff.mpr (keyed_of_changeLast? h (keyed_tables_iff.mp hn) hchanged)

theorem keepsAll_changeAtPath? (dotted : Bool) (h : Keeps change) (path : List String) :
    KeepsAll (changeAtPath? dotted change path) := by
  induction path with
  | nil =>
    intro before after _ hafter
    cases hafter
  | cons key rest ih =>
    cases rest with
    | nil => exact keepsAll_changeNode? key h
    | cons next rest => exact keepsAll_changeNode? key (keeps_goInto? dotted ih)

theorem keepsAll_changeTable? (h : KeepsAll changeAll) (path : List String) :
    KeepsAll (changeTable? changeAll path) := by
  induction path with
  | nil => exact h
  | cons key rest ih => exact keepsAll_changeNode? key (keeps_goInto? false ih)

end Path

/-! #### At its end -/

theorem keyed_opened : opened.Keyed := keyed_table_iff.mpr .nil

theorem keeps_put? {s : Setting} (hs : s.Keyed) : Keeps (put? s) := by
  intro before after _ hafter
  cases before with
  | none =>
    obtain rfl := Option.some.inj hafter
    exact .value hs
  | some n => cases hafter

theorem keeps_open? : Keeps open? := by
  intro before after hbefore hafter
  cases before with
  | none =>
    obtain rfl := Option.some.inj hafter
    exact keyed_opened
  | some n =>
    have hn : n.Keyed := hbefore n rfl
    cases n with
    | value s => cases hafter
    | tables elements => cases hafter
    | table origin entries =>
      -- Only a table that was implied so far can be opened.
      cases origin with
      | implied =>
        obtain rfl := Option.some.inj hafter
        exact keyed_table_iff.mpr (keyed_table_iff.mp hn)
      | dotted => cases hafter
      | opened => cases hafter

theorem keeps_openNext? : Keeps openNext? := by
  intro before after hbefore hafter
  cases before with
  | none =>
    obtain rfl := Option.some.inj hafter
    exact keyed_tables_iff.mpr (List.forall_mem_singleton.mpr keyed_opened)
  | some n =>
    have hn : n.Keyed := hbefore n rfl
    cases n with
    | value s => cases hafter
    | table origin entries => cases hafter
    | tables elements =>
      obtain rfl := Option.some.inj hafter
      rw [keyed_tables_iff, List.forall_mem_append]
      exact ⟨keyed_tables_iff.mp hn, List.forall_mem_singleton.mpr keyed_opened⟩

theorem keepsAll_assign? {s : Setting} (hs : s.Keyed) (path : List String) :
    KeepsAll (assign? path s) :=
  keepsAll_changeAtPath? true (keeps_put? hs) path

/-! #### The finished table -/

theorem keys_toEntries (nodes : Nodes) : (toEntries nodes).map (·.1) = nodes.map (·.1) := by
  induction nodes with
  | nil => rfl
  | cons e rest ih => exact congrArg (e.1 :: ·) ih

mutual

theorem keyed_toSetting (n : Node) (h : n.Keyed) : n.toSetting.Keyed := by
  cases n with
  | value s =>
    obtain ⟨hs⟩ | _ | _ := h
    exact hs
  | table origin entries =>
    exact Setting.keyed_table_iff.mpr (hasDistinctKeys_toEntries entries (keyed_table_iff.mp h))
  | tables elements => exact .array (keyed_toElements elements (keyed_tables_iff.mp h))

theorem hasDistinctKeys_toEntries (nodes : Nodes) (h : HasDistinctKeys Keyed nodes) :
    HasDistinctKeys Setting.Keyed (toEntries nodes) := by
  cases nodes with
  | nil => exact .nil
  | cons e rest =>
    obtain ⟨k, n⟩ := e
    obtain ⟨hk, hn, hrest⟩ := HasDistinctKeys.cons_iff.mp h
    rw [toEntries, HasDistinctKeys.cons_iff, keys_toEntries]
    exact ⟨hk, keyed_toSetting n hn, hasDistinctKeys_toEntries rest hrest⟩

theorem keyed_toElements (elements : List Node) (h : ∀ n ∈ elements, n.Keyed) :
    ∀ s ∈ toElements elements, s.Keyed := by
  cases elements with
  | nil => exact nofun
  | cons n rest =>
    obtain ⟨hn, hrest⟩ := List.forall_mem_cons.mp h
    exact List.forall_mem_cons.mpr ⟨keyed_toSetting n hn, keyed_toElements rest hrest⟩

end

end Node

/-! #### Statements -/

/-- The value of an assignment, if a statement is one, has no key twice. -/
def Statement.Keyed : Statement → Prop
  | .assignment _ s => s.Keyed
  | _ => True

/-- A statement leaves the keys of a document distinct. -/
theorem Draft.keyed_of_run? {d d' : Draft} {statement : Statement}
    (hd : HasDistinctKeys Node.Keyed d.nodes) (hstatement : statement.Keyed)
    (h : d.run? statement = some d') : HasDistinctKeys Node.Keyed d'.nodes := by
  cases statement with
  | header path =>
    obtain ⟨nodes, hnodes, heq⟩ := Option.bind_eq_some_iff.mp h
    obtain rfl := Option.some.inj heq
    exact Node.keepsAll_changeAtPath? false Node.keeps_open? path hd hnodes
  | arrayHeader path =>
    obtain ⟨nodes, hnodes, heq⟩ := Option.bind_eq_some_iff.mp h
    obtain rfl := Option.some.inj heq
    exact Node.keepsAll_changeAtPath? false Node.keeps_openNext? path hd hnodes
  | assignment path s =>
    obtain ⟨nodes, hnodes, heq⟩ := Option.bind_eq_some_iff.mp h
    obtain rfl := Option.some.inj heq
    exact Node.keepsAll_changeTable? (Node.keepsAll_assign? hstatement path) d.openPath hd hnodes

/-- What every step keeps, a run of steps keeps. -/
theorem foldlM_keeps {α β : Type} {step : α → β → Option α} {Good : α → Prop} {GoodStep : β → Prop}
    (hstep : ∀ {a a' b}, Good a → GoodStep b → step a b = some a' → Good a') {l : List β}
    (hl : ∀ b ∈ l, GoodStep b) {a a' : α} (ha : Good a) (h : l.foldlM step a = some a') :
    Good a' := by
  induction l generalizing a with
  | nil =>
    obtain rfl := Option.some.inj h
    exact ha
  | cons b rest ih =>
    obtain ⟨hb, hrest⟩ := List.forall_mem_cons.mp hl
    rw [List.foldlM_cons] at h
    obtain ⟨next, hnext, h⟩ := Option.bind_eq_some_iff.mp h
    exact ih hrest (hstep ha hb hnext) h

theorem keyed_of_build? {statements : List Statement} {s : Setting}
    (hstatements : ∀ x ∈ statements, x.Keyed) (h : build? statements = some s) : s.Keyed := by
  obtain ⟨d, hd, heq⟩ := Option.bind_eq_some_iff.mp h
  obtain rfl := Option.some.inj heq
  refine Setting.keyed_table_iff.mpr (Node.hasDistinctKeys_toEntries d.nodes ?_)
  exact foldlM_keeps (fun hd hx hrun => Draft.keyed_of_run? hd hx hrun) hstatements .nil hd

theorem keyed_of_inlineTable? {assignments : List (List String × Setting)} {s : Setting}
    (hassignments : ∀ a ∈ assignments, a.2.Keyed) (h : inlineTable? assignments = some s) :
    s.Keyed := by
  obtain ⟨nodes, hnodes, heq⟩ := Option.bind_eq_some_iff.mp h
  obtain rfl := Option.some.inj heq
  refine Setting.keyed_table_iff.mpr (Node.hasDistinctKeys_toEntries nodes ?_)
  exact foldlM_keeps (fun hn ha hassign => Node.keepsAll_assign? ha _ hn hassign) hassignments
    .nil hnodes

/-! #### The parser -/

theorem keyed_of_scalar? {cs : List Char} {s : Setting} (h : scalar? cs = some s) : s.Keyed := by
  rw [scalar?] at h
  split at h
  · obtain rfl := Option.some.inj h
    exact .bool true
  split at h
  · obtain rfl := Option.some.inj h
    exact .bool false
  split at h
  · obtain rfl := Option.some.inj h
    exact .integer _
  split at h
  · obtain rfl := Option.some.inj h
    exact .float _
  · obtain ⟨text, -, rfl⟩ := Option.map_eq_some_iff.mp h
    exact .text _

mutual

/-- A value that is read has no key twice, whatever the fuel. -/
theorem keyed_of_value? (fuel : Nat) {cs rest : List Char} {s : Setting}
    (h : value? fuel cs = some (s, rest)) : s.Keyed := by
  cases fuel with
  | zero => cases h
  | succ fuel =>
    unfold value? at h
    simp only at h
    split at h
    · obtain ⟨⟨elements, end_⟩, hread, heq⟩ := Option.map_eq_some_iff.mp h
      obtain ⟨rfl, -⟩ := Prod.mk.inj heq
      exact .array (keyed_of_elements? fuel hread)
    · split at h
      · obtain ⟨rfl, -⟩ := Prod.mk.inj (Option.some.inj h)
        exact Setting.keyed_table_iff.mpr .nil
      · simp only [Option.bind_eq_bind, Option.bind_eq_some_iff] at h
        obtain ⟨⟨assignments, end_⟩, hread, table, htable, heq⟩ := h
        obtain ⟨rfl, -⟩ := Prod.mk.inj (Option.some.inj heq)
        exact keyed_of_inlineTable? (keyed_of_members? fuel hread) htable
    · split at h
      · obtain ⟨rfl, -⟩ := Prod.mk.inj (Option.some.inj h)
        exact .text _
      · simp only [Option.bind_eq_bind, Option.bind_eq_some_iff] at h
        obtain ⟨s, hs, heq⟩ := h
        obtain ⟨rfl, -⟩ := Prod.mk.inj (Option.some.inj heq)
        exact keyed_of_scalar? hs

theorem keyed_of_elements? (fuel : Nat) {cs rest : List Char} {l : List Setting}
    (h : elements? fuel cs = some (l, rest)) : ∀ s ∈ l, s.Keyed := by
  cases fuel with
  | zero => cases h
  | succ fuel =>
    rw [elements?] at h
    obtain ⟨start, -, h⟩ := Option.bind_eq_some_iff.mp h
    simp only at h
    split at h
    · obtain ⟨rfl, -⟩ := Prod.mk.inj (Option.some.inj h)
      exact nofun
    · obtain ⟨⟨e, afterElement⟩, he, h⟩ := Option.bind_eq_some_iff.mp h
      have hgood : e.Keyed := keyed_of_value? fuel he
      obtain ⟨next, -, h⟩ := Option.bind_eq_some_iff.mp h
      simp only at h
      split at h
      · obtain ⟨rfl, -⟩ := Prod.mk.inj (Option.some.inj h)
        exact List.forall_mem_singleton.mpr hgood
      · obtain ⟨⟨more, end_⟩, hmore, heq⟩ := Option.bind_eq_some_iff.mp h
        obtain ⟨rfl, -⟩ := Prod.mk.inj (Option.some.inj heq)
        exact List.forall_mem_cons.mpr ⟨hgood, keyed_of_elements? fuel hmore⟩
      · cases h

theorem keyed_of_members? (fuel : Nat) {cs rest : List Char} {l : List (List String × Setting)}
    (h : members? fuel cs = some (l, rest)) : ∀ a ∈ l, a.2.Keyed := by
  cases fuel with
  | zero => cases h
  | succ fuel =>
    rw [members?] at h
    simp only [Option.bind_eq_bind, Option.bind_eq_some_iff] at h
    obtain ⟨⟨path, afterKey⟩, -, start, -, ⟨s, afterValue⟩, hs, h⟩ := h
    have hgood : s.Keyed := keyed_of_value? fuel hs
    simp only at h
    split at h
    · obtain ⟨rfl, -⟩ := Prod.mk.inj (Option.some.inj h)
      exact List.forall_mem_singleton.mpr hgood
    · obtain ⟨⟨more, end_⟩, hmore, heq⟩ := Option.bind_eq_some_iff.mp h
      obtain ⟨rfl, -⟩ := Prod.mk.inj (Option.some.inj heq)
      exact List.forall_mem_cons.mpr ⟨hgood, keyed_of_members? fuel hmore⟩
    · cases h

end

theorem keyed_of_header? {cs rest : List Char} {x : Statement}
    (h : header? cs = some (x, rest)) : x.Keyed := by
  unfold header? at h
  split at h
  · simp only [Option.bind_eq_bind, Option.bind_eq_some_iff] at h
    obtain ⟨_, -, _, -, heq⟩ := h
    obtain ⟨rfl, -⟩ := Prod.mk.inj (Option.some.inj heq)
    trivial
  · simp only [Option.bind_eq_bind, Option.bind_eq_some_iff] at h
    obtain ⟨_, -, _, -, heq⟩ := h
    obtain ⟨rfl, -⟩ := Prod.mk.inj (Option.some.inj heq)
    trivial

theorem keyed_of_statement? {cs rest : List Char} {x : Statement}
    (h : statement? cs = some (x, rest)) : x.Keyed := by
  unfold statement? at h
  split at h
  · exact keyed_of_header? h
  · simp only [assignment?, Option.bind_eq_bind, Option.bind_eq_some_iff] at h
    obtain ⟨_, -, _, -, ⟨s, _⟩, hs, heq⟩ := h
    obtain ⟨rfl, -⟩ := Prod.mk.inj (Option.some.inj heq)
    exact keyed_of_value? _ hs

theorem keyed_of_statements? {fuel : Nat} {cs : List Char} {l : List Statement}
    (h : statements? fuel cs = some l) : ∀ x ∈ l, x.Keyed := by
  induction fuel generalizing cs l with
  | zero => cases h
  | succ fuel ih =>
    rw [statements?] at h
    obtain ⟨start, -, h⟩ := Option.bind_eq_some_iff.mp h
    simp only at h
    split at h
    · obtain rfl := Option.some.inj h
      exact nofun
    · simp only [Option.bind_eq_bind, Option.bind_eq_some_iff] at h
      obtain ⟨⟨x, _⟩, hx, _, -, more, hmore, heq⟩ := h
      obtain rfl := Option.some.inj heq
      exact List.forall_mem_cons.mpr ⟨keyed_of_statement? hx, ih hmore⟩

theorem keyed_of_parse? {text : String} {s : Setting} (h : parse? text = some s) : s.Keyed := by
  obtain ⟨statements, hread, hbuild⟩ := Option.bind_eq_some_iff.mp h
  exact keyed_of_build? (keyed_of_statements? hread) hbuild

end Toml

/-- **Nothing that is read from a file has a key twice.** -/
theorem Settings.Library.keyed_of_parse? {library : Library} {format : Format} {text : String}
    {s : Setting} (h : library.parse? format text = some s) : s.Keyed := by
  have hother (format : Format) (h : (library.readOther? format text).map (·.1) = some s) :
      s.Keyed := by
    obtain ⟨t, -, rfl⟩ := Option.map_eq_some_iff.mp h
    exact t.2
  cases format with
  | toml => exact Toml.keyed_of_parse? h
  | json =>
    obtain ⟨j, -, hj⟩ := Option.bind_eq_some_iff.mp h
    split at hj
    · exact keyed_of_ofJson? j hj
    · cases hj
  | yaml => exact hother .yaml h
  | ini => exact hother .ini h
  | ron => exact hother .ron h
  | json5 => exact hother .json5 h

end JudgePolicy
