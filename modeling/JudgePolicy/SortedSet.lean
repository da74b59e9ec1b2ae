/-
Finite sets, kept as strictly ascending lists.

A `SortedSet α` holds its elements in the order `compare` gives them:

* `SortedSet.ext` — two sets with the same elements are the same value;
* `mem_insert`, `mem_union`, `mem_ofList`, `mem_filter` — what each operation
  does to membership, the one view through which sets are reasoned about;
* `meets_iff` — the test for a common element.

Design notes: the ascending list is the value itself, so the order in which a
set is written is the order of its list, and equality of sets is equality.
-/
namespace JudgePolicy

universe u

/-- Each element lies strictly below every later one. -/
abbrev Ascending {α : Type u} [Ord α] (l : List α) : Prop :=
  l.Pairwise (fun a b => compare a b = .lt)

/-- Puts `a` at its place in an ascending list; an element already there stays. -/
def insertAscending {α : Type u} [Ord α] (a : α) : List α → List α
  | [] => [a]
  | b :: rest =>
    match compare a b with
    | .lt => a :: b :: rest
    | .eq => b :: rest
    | .gt => b :: insertAscending a rest

section Insertion

variable {α : Type u} [Ord α] [Std.TransOrd α] [Std.LawfulEqOrd α]

omit [Std.TransOrd α] in
theorem mem_insertAscending {a x : α} {l : List α} :
    x ∈ insertAscending a l ↔ x = a ∨ x ∈ l := by
  induction l with
  | nil => simp [insertAscending]
  | cons b rest ih =>
    rw [insertAscending]
    split
    · simp
    · next h =>
      have hab : a = b := Std.LawfulEqOrd.eq_of_compare h
      subst hab
      simp
    · simp only [List.mem_cons, ih]
      constructor <;> rintro (h | h | h) <;> simp [h]

theorem ascending_insertAscending {a : α} {l : List α} (h : Ascending l) :
    Ascending (insertAscending a l) := by
  induction l with
  | nil => simp [insertAscending, Ascending]
  | cons b rest ih =>
    have hb := List.pairwise_cons.1 h
    rw [insertAscending]
    split
    · next hab =>
      refine List.pairwise_cons.2 ⟨fun x hx => ?_, h⟩
      rcases List.mem_cons.1 hx with rfl | hx
      · exact hab
      · exact Std.TransCmp.lt_trans hab (hb.1 x hx)
    · exact h
    · next hab =>
      refine List.pairwise_cons.2 ⟨fun x hx => ?_, ih hb.2⟩
      rcases mem_insertAscending.1 hx with rfl | hx
      · exact Std.OrientedCmp.gt_iff_lt.1 hab
      · exact hb.1 x hx

end Insertion

/-- A finite set, held as its elements in ascending order. -/
structure SortedSet (α : Type u) [Ord α] where
  toList : List α
  ascending : Ascending toList

namespace SortedSet

variable {α : Type u} [Ord α]

instance : Membership α (SortedSet α) := ⟨fun s a => a ∈ s.toList⟩

instance [DecidableEq α] (a : α) (s : SortedSet α) : Decidable (a ∈ s) :=
  inferInstanceAs (Decidable (a ∈ s.toList))

instance [DecidableEq α] : DecidableEq (SortedSet α) := fun s t =>
  decidable_of_iff (s.toList = t.toList) <| by
    cases s; cases t; simp

instance : EmptyCollection (SortedSet α) := ⟨⟨[], .nil⟩⟩

instance : Inhabited (SortedSet α) := ⟨∅⟩

@[simp] theorem mem_toList {a : α} {s : SortedSet α} : a ∈ s.toList ↔ a ∈ s := Iff.rfl

theorem nodup_toList [Std.ReflOrd α] (s : SortedSet α) : s.toList.Nodup := by
  refine s.ascending.imp ?_
  rintro a b hlt rfl
  rw [Std.ReflOrd.compare_self] at hlt
  cases hlt

@[simp] theorem toList_empty : (∅ : SortedSet α).toList = [] := rfl

@[simp] theorem not_mem_empty (a : α) : a ∉ (∅ : SortedSet α) := by
  simp [← mem_toList]

def isEmpty (s : SortedSet α) : Bool := s.toList.isEmpty

/-- The elements that pass a test. -/
def filter (p : α → Bool) (s : SortedSet α) : SortedSet α :=
  ⟨s.toList.filter p, s.ascending.filter p⟩

@[simp] theorem mem_filter {p : α → Bool} {a : α} {s : SortedSet α} :
    a ∈ s.filter p ↔ a ∈ s ∧ p a = true := by
  simp [← mem_toList, filter]

/-- Whether two sets have an element in common. -/
def meets [DecidableEq α] (s t : SortedSet α) : Bool := s.toList.any (· ∈ t)

theorem meets_iff [DecidableEq α] {s t : SortedSet α} :
    s.meets t = true ↔ ∃ a, a ∈ s ∧ a ∈ t := by
  simp [meets]

section Building

variable [Std.TransOrd α] [Std.LawfulEqOrd α]

/-- The set with one more element. -/
def insert (a : α) (s : SortedSet α) : SortedSet α :=
  ⟨insertAscending a s.toList, ascending_insertAscending s.ascending⟩

/-- The set with the elements of a list added. -/
def insertAll (s : SortedSet α) (l : List α) : SortedSet α :=
  l.foldl (fun t a => t.insert a) s

/-- The set of the elements of a list. -/
def ofList (l : List α) : SortedSet α := insertAll ∅ l

def union (s t : SortedSet α) : SortedSet α := s.insertAll t.toList

@[simp] theorem mem_insert {a x : α} {s : SortedSet α} :
    x ∈ s.insert a ↔ x = a ∨ x ∈ s :=
  mem_insertAscending

@[simp] theorem mem_insertAll {x : α} {s : SortedSet α} {l : List α} :
    x ∈ s.insertAll l ↔ x ∈ s ∨ x ∈ l := by
  induction l generalizing s with
  | nil => simp [insertAll]
  | cons a rest ih =>
    have step : s.insertAll (a :: rest) = (s.insert a).insertAll rest := rfl
    rw [step, ih, mem_insert, List.mem_cons]
    constructor <;> rintro (h | h) <;> grind

@[simp] theorem mem_ofList {x : α} {l : List α} : x ∈ ofList l ↔ x ∈ l := by
  simp [ofList]

@[simp] theorem mem_union {x : α} {s t : SortedSet α} :
    x ∈ s.union t ↔ x ∈ s ∨ x ∈ t := by
  simp [union]

end Building

/-- Two ascending lists with the same elements are equal. -/
theorem ascending_ext [Std.TransOrd α] [Std.LawfulEqOrd α] {l m : List α}
    (hl : Ascending l) (hm : Ascending m) (h : ∀ a, a ∈ l ↔ a ∈ m) : l = m := by
  induction l generalizing m with
  | nil =>
    cases m with
    | nil => rfl
    | cons b m => exact absurd ((h b).2 (by simp)) (by simp)
  | cons a l ih =>
    cases m with
    | nil => exact absurd ((h a).1 (by simp)) (by simp)
    | cons b m =>
      have ha := List.pairwise_cons.1 hl
      have hb := List.pairwise_cons.1 hm
      have irrefl : ∀ x : α, compare x x ≠ .lt := fun x => by
        simp [Std.compare_self]
      have hab : a = b := by
        rcases List.mem_cons.1 ((h a).1 (by simp)) with rfl | ham
        · rfl
        · rcases List.mem_cons.1 ((h b).2 (by simp)) with rfl | hbl
          · rfl
          · exact absurd (Std.TransCmp.lt_trans (ha.1 b hbl) (hb.1 a ham)) (irrefl a)
      subst hab
      refine congrArg (a :: ·) (ih ha.2 hb.2 fun x => ⟨fun hx => ?_, fun hx => ?_⟩)
      · rcases List.mem_cons.1 ((h x).1 (List.mem_cons_of_mem _ hx)) with rfl | hx'
        · exact absurd (ha.1 x hx) (irrefl x)
        · exact hx'
      · rcases List.mem_cons.1 ((h x).2 (List.mem_cons_of_mem _ hx)) with rfl | hx'
        · exact absurd (hb.1 x hx) (irrefl x)
        · exact hx'

/-- **Extensionality.**  A set is determined by its elements. -/
theorem ext [Std.TransOrd α] [Std.LawfulEqOrd α] {s t : SortedSet α}
    (h : ∀ a, a ∈ s ↔ a ∈ t) : s = t := by
  have := ascending_ext s.ascending t.ascending h
  cases s; cases t; simp_all

/-- A set is the set of its own elements. -/
theorem ofList_toList [Std.TransOrd α] [Std.LawfulEqOrd α] (s : SortedSet α) :
    ofList s.toList = s :=
  ext fun a => by simp

end SortedSet

end JudgePolicy
