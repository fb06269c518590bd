import Mathlib.Algebra.BigOperators.Group.List.Basic
import Mathlib.Algebra.Order.BigOperators.GroupWithZero.List
import Mathlib.Tactic.Ring

namespace BananaChat.Foundation

open List

universe u v

/-!
# One more entry of a list

`Inserted item fewer more` says that the second list is the first one with one entry put in
somewhere, or the first one itself.
-/

def Inserted {Item : Type u} (item : Item) (fewer more : List Item) : Prop :=
  more = fewer \/ ∃ first rest, fewer = first ++ rest /\ more = first ++ item :: rest

namespace Inserted

variable {Item : Type u} {Other : Type v} {item : Item} {fewer more : List Item}

theorem between (item : Item) (first rest : List Item) : Inserted item (first ++ rest) (first ++ item :: rest) :=
  .inr ⟨first, rest, rfl, rfl⟩

section

variable (inserted : Inserted item fewer more)
include inserted

theorem filter (kept : Item -> Bool) : Inserted item (fewer.filter kept) (more.filter kept) := by
  rcases inserted with rfl | ⟨first, rest, rfl, rfl⟩
  · exact .inl rfl
  · by_cases keeps : kept item
    · refine .inr ⟨first.filter kept, rest.filter kept, filter_append first rest, ?_⟩
      rw [filter_append, filter_cons_of_pos keeps]
    · refine .inl ?_
      rw [filter_append, filter_append, filter_cons_of_neg keeps]

theorem filter_dropped {kept : Item -> Bool} (dropped : kept item = false) : more.filter kept = fewer.filter kept := by
  rcases inserted with rfl | ⟨_, _, rfl, rfl⟩
  · rfl
  · rw [filter_append, filter_append, filter_cons_of_neg (by rw [dropped]; exact Bool.false_ne_true)]

theorem map (image : Item -> Other) : Inserted (image item) (fewer.map image) (more.map image) := by
  rcases inserted with rfl | ⟨first, rest, rfl, rfl⟩
  · exact .inl rfl
  · exact .inr ⟨first.map image, rest.map image, map_append, by rw [map_append, map_cons]⟩

end

theorem eq_nil (inserted : Inserted item fewer []) : fewer = [] := by
  rcases inserted with same | ⟨_, _, _, clash⟩
  · exact same.symm
  · exact absurd clash.symm (append_ne_nil_of_right_ne_nil _ (cons_ne_nil _ _))

section Amounts

variable {K : Type u} [CommRing K] [LinearOrder K] [IsStrictOrderedRing K] {amount : K} {less greater : List K}

theorem sum_le (inserted : Inserted amount less greater) (nonneg : 0 <= amount) : less.sum <= greater.sum := by
  rcases inserted with rfl | ⟨_, _, rfl, rfl⟩
  · exact le_refl _
  · rw [sum_append, sum_append, sum_cons]
    exact add_le_add (le_refl _) (le_add_of_nonneg_left nonneg)

theorem prod_le (inserted : Inserted amount less greater) (nonneg : ∀ other ∈ less, 0 <= other)
  (grows : 1 <= amount) : less.prod <= greater.prod := by
  rcases inserted with rfl | ⟨first, rest, rfl, rfl⟩
  · exact le_refl _
  · have product : 0 <= (first ++ rest).prod := prod_nonneg nonneg
    have more : (first ++ amount :: rest).prod = (first ++ rest).prod * amount := by
      rw [prod_append, prod_append, prod_cons]
      ring
    rw [more]
    exact le_mul_of_one_le_right product grows

end Amounts

end Inserted
end BananaChat.Foundation
