/-
Ordering a type by a key.
-/
namespace JudgePolicy

universe u v

/-- Comparison by a key tells equal elements apart from others if different
elements have different keys. -/
theorem lawfulEqCmp_compareOn {α : Type u} {β : Type v} [Ord β] [Std.LawfulEqOrd β]
    {key : α → β} (injective : ∀ a b, key a = key b → a = b) :
    Std.LawfulEqCmp (compareOn key) where
  compare_self := Std.ReflOrd.compare_self
  eq_of_compare h := injective _ _ (Std.LawfulEqOrd.eq_of_compare h)

end JudgePolicy
