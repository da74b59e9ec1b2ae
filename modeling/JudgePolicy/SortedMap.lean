/-
Finite maps, kept as lists of entries with strictly ascending keys.

* `get?_insert_self`, `get?_insert_of_ne` — an insertion replaces the value
  under its own key and touches no other;
* `mem_entries_iff` — the entries are exactly the pairs that `get?` answers;
* `SortedMap.ext` — a map is determined by its answers;
* `insert_comm` — so insertions under different keys can be made in either order.
-/
import JudgePolicy.SortedSet
namespace JudgePolicy

universe u v

/-- Puts an entry at its place, replacing the one with the same key. -/
def insertEntry {κ : Type u} {ν : Type v} [Ord κ] (k : κ) (x : ν) :
    List (κ × ν) → List (κ × ν)
  | [] => [(k, x)]
  | e :: rest =>
    match compare k e.1 with
    | .lt => (k, x) :: e :: rest
    | .eq => (k, x) :: rest
    | .gt => e :: insertEntry k x rest

/-- The value of the first entry with key `k`. -/
def findEntry {κ : Type u} {ν : Type v} [DecidableEq κ] (k : κ) :
    List (κ × ν) → Option ν
  | [] => none
  | e :: rest => if e.1 = k then some e.2 else findEntry k rest

/-- A finite map, held as its entries in ascending order of their keys. -/
structure SortedMap (κ : Type u) (ν : Type v) [Ord κ] where
  entries : List (κ × ν)
  ascending : entries.Pairwise (fun a b => compare a.1 b.1 = .lt)

namespace SortedMap

variable {κ : Type u} {ν : Type v} [Ord κ]

instance : EmptyCollection (SortedMap κ ν) := ⟨⟨[], .nil⟩⟩

instance : Inhabited (SortedMap κ ν) := ⟨∅⟩

/-- The value under a key. -/
def get? [DecidableEq κ] (m : SortedMap κ ν) (k : κ) : Option ν := findEntry k m.entries

/-- The values, in ascending order of their keys. -/
def values (m : SortedMap κ ν) : List ν := m.entries.map (·.2)

section Insertion

variable [Std.TransOrd κ] [Std.LawfulEqOrd κ]

omit [Std.TransOrd κ] [Std.LawfulEqOrd κ] in
theorem mem_insertEntry {k : κ} {x : ν} {e : κ × ν} {l : List (κ × ν)}
    (h : e ∈ insertEntry k x l) : e = (k, x) ∨ e ∈ l := by
  induction l with
  | nil => simpa [insertEntry] using h
  | cons d rest ih =>
    rw [insertEntry] at h
    split at h
    · simpa using h
    · rcases List.mem_cons.1 h with h | h <;> simp [h]
    · rcases List.mem_cons.1 h with h | h
      · simp [h]
      · rcases ih h with h | h <;> simp [h]

theorem ascending_insertEntry {k : κ} {x : ν} {l : List (κ × ν)}
    (h : l.Pairwise (fun a b => compare a.1 b.1 = .lt)) :
    (insertEntry k x l).Pairwise (fun a b => compare a.1 b.1 = .lt) := by
  induction l with
  | nil => simp [insertEntry]
  | cons d rest ih =>
    have hd := List.pairwise_cons.1 h
    rw [insertEntry]
    split
    · next hk =>
      refine List.pairwise_cons.2 ⟨fun e he => ?_, h⟩
      rcases List.mem_cons.1 he with rfl | he
      · exact hk
      · exact Std.TransCmp.lt_trans hk (hd.1 e he)
    · next hk =>
      have hkd : k = d.1 := Std.LawfulEqOrd.eq_of_compare hk
      exact List.pairwise_cons.2 ⟨fun e he => by simpa [hkd] using hd.1 e he, hd.2⟩
    · next hk =>
      refine List.pairwise_cons.2 ⟨fun e he => ?_, ih hd.2⟩
      rcases mem_insertEntry he with rfl | he
      · exact Std.OrientedCmp.gt_iff_lt.1 hk
      · exact hd.1 e he

/-- The map with `x` under `k`. -/
def insert (k : κ) (x : ν) (m : SortedMap κ ν) : SortedMap κ ν :=
  ⟨insertEntry k x m.entries, ascending_insertEntry m.ascending⟩

omit [Std.TransOrd κ] in
theorem findEntry_insertEntry_self [DecidableEq κ] (k : κ) (x : ν) (l : List (κ × ν)) :
    findEntry k (insertEntry k x l) = some x := by
  induction l with
  | nil => simp [insertEntry, findEntry]
  | cons d rest ih =>
    rw [insertEntry]
    split
    · simp [findEntry]
    · simp [findEntry]
    · next h =>
      have hd : d.1 ≠ k := by
        rintro rfl
        simp [Std.compare_self] at h
      simp [findEntry, hd, ih]

omit [Std.TransOrd κ] in
theorem findEntry_insertEntry_of_ne [DecidableEq κ] {k k' : κ} (hk : k ≠ k') (x : ν)
    (l : List (κ × ν)) : findEntry k' (insertEntry k x l) = findEntry k' l := by
  induction l with
  | nil => simp [insertEntry, findEntry, hk]
  | cons d rest ih =>
    rw [insertEntry]
    split
    · simp [findEntry, hk]
    · next h =>
      have hd : k = d.1 := Std.LawfulEqOrd.eq_of_compare h
      subst hd
      simp [findEntry, hk]
    · simp [findEntry, ih]

@[simp] theorem get?_insert_self [DecidableEq κ] (k : κ) (x : ν) (m : SortedMap κ ν) :
    (m.insert k x).get? k = some x :=
  findEntry_insertEntry_self k x m.entries

theorem get?_insert_of_ne [DecidableEq κ] {k k' : κ} (hk : k ≠ k') (x : ν)
    (m : SortedMap κ ν) : (m.insert k x).get? k' = m.get? k' :=
  findEntry_insertEntry_of_ne hk x m.entries

omit [Std.TransOrd κ] in
theorem mem_iff_findEntry [DecidableEq κ] {l : List (κ × ν)} {k : κ} {x : ν}
    (h : l.Pairwise (fun a b => compare a.1 b.1 = .lt)) :
    (k, x) ∈ l ↔ findEntry k l = some x := by
  induction l with
  | nil => simp [findEntry]
  | cons d rest ih =>
    have hd := List.pairwise_cons.1 h
    rw [List.mem_cons, ih hd.2, findEntry]
    split
    · next hk =>
      constructor
      · rintro (h | h)
        · simp [← h]
        · have := hd.1 (k, x) ((ih hd.2).2 h)
          simp [hk, Std.compare_self] at this
      · intro h
        left
        cases d
        simp_all
    · next hk =>
      constructor
      · rintro (h | h)
        · exact absurd (by simp [← h]) hk
        · exact h
      · exact Or.inr

omit [Std.TransOrd κ] in
/-- The entries are the pairs that `get?` answers. -/
theorem mem_entries_iff [DecidableEq κ] {m : SortedMap κ ν} {k : κ} {x : ν} :
    (k, x) ∈ m.entries ↔ m.get? k = some x :=
  mem_iff_findEntry m.ascending

theorem entries_ext [DecidableEq κ] {l m : List (κ × ν)}
    (hl : l.Pairwise (fun a b => compare a.1 b.1 = .lt))
    (hm : m.Pairwise (fun a b => compare a.1 b.1 = .lt))
    (h : ∀ k, findEntry k l = findEntry k m) : l = m := by
  have mem : ∀ e : κ × ν, e ∈ l ↔ e ∈ m := fun e => by
    rw [mem_iff_findEntry (k := e.1) (x := e.2) hl, mem_iff_findEntry hm, h]
  clear h
  induction l generalizing m with
  | nil =>
    cases m with
    | nil => rfl
    | cons b m => exact absurd ((mem b).2 (by simp)) (by simp)
  | cons a l ih =>
    cases m with
    | nil => exact absurd ((mem a).1 (by simp)) (by simp)
    | cons b m =>
      have ha := List.pairwise_cons.1 hl
      have hb := List.pairwise_cons.1 hm
      have irrefl : ∀ x : κ, compare x x ≠ .lt := fun x => by
        simp [Std.compare_self]
      have hab : a = b := by
        rcases List.mem_cons.1 ((mem a).1 (by simp)) with rfl | ham
        · rfl
        · rcases List.mem_cons.1 ((mem b).2 (by simp)) with rfl | hbl
          · rfl
          · exact absurd (Std.TransCmp.lt_trans (ha.1 b hbl) (hb.1 a ham)) (irrefl a.1)
      subst hab
      refine congrArg (a :: ·) (ih ha.2 hb.2 fun x => ⟨fun hx => ?_, fun hx => ?_⟩)
      · rcases List.mem_cons.1 ((mem x).1 (List.mem_cons_of_mem _ hx)) with rfl | hx'
        · exact absurd (ha.1 x hx) (irrefl x.1)
        · exact hx'
      · rcases List.mem_cons.1 ((mem x).2 (List.mem_cons_of_mem _ hx)) with rfl | hx'
        · exact absurd (hb.1 x hx) (irrefl x.1)
        · exact hx'

/-- **Extensionality.**  A map is determined by what it answers. -/
theorem ext [DecidableEq κ] {m n : SortedMap κ ν} (h : ∀ k, m.get? k = n.get? k) :
    m = n := by
  have := entries_ext m.ascending n.ascending h
  cases m; cases n; simp_all

/-- After an insertion, the new value is found under its own key and whatever was
there before under the others. -/
theorem get?_insert_eq_or [DecidableEq κ] (k k' : κ) (x : ν) (m : SortedMap κ ν) :
    (m.insert k x).get? k' = (if k = k' then some x else none).or (m.get? k') := by
  by_cases hk : k = k'
  · rw [if_pos hk, ← hk, get?_insert_self, Option.some_or]
  · rw [if_neg hk, get?_insert_of_ne hk, Option.none_or]

theorem insert_comm [DecidableEq κ] {k k' : κ} (hk : k ≠ k') (x x' : ν)
    (m : SortedMap κ ν) : (m.insert k x).insert k' x' = (m.insert k' x').insert k x := by
  refine ext fun j => ?_
  rw [get?_insert_eq_or, get?_insert_eq_or, get?_insert_eq_or, get?_insert_eq_or]
  -- At most one of the two insertions is made under `j`.
  by_cases hj : k = j
  · rw [if_pos hj, if_neg (hj ▸ hk.symm), Option.none_or, Option.none_or]
  · rw [if_neg hj, Option.none_or, Option.none_or]

end Insertion

end SortedMap

end JudgePolicy
