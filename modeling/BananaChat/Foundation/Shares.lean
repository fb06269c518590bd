import Mathlib.Algebra.Order.BigOperators.Group.List
import Mathlib.Algebra.Order.Field.Basic
import Mathlib.Tactic.Linarith

namespace BananaChat.Foundation

open List

universe u v

/-!
# Shares of a pool

Every item of a pool has a weight and a part of it that is left.
-/

namespace Shares

variable {Item : Type u} {K : Type v} [Field K]

def total (amount : Item -> K) (items : List Item) : K := (items.map amount).sum

def pooled (weight part : Item -> K) (items : List Item) : K := total part items / total weight items

def share (weight : Item -> K) (items : List Item) (item : Item) : K := weight item / total weight items

@[simp] theorem total_nil (amount : Item -> K) : total amount [] = 0 := rfl

@[simp] theorem total_cons (amount : Item -> K) (item : Item) (items : List Item) :
    total amount (item :: items) = amount item + total amount items := by
  simp [total]

@[simp] theorem total_append (amount : Item -> K) (first rest : List Item) :
    total amount (first ++ rest) = total amount first + total amount rest := by
  simp [total]

theorem total_congr {amount other : Item -> K} {items : List Item} (same : ∀ item ∈ items, amount item = other item) :
  total amount items = total other items := by
  unfold total
  rw [map_congr_left same]

theorem total_filter (kept : Item -> Bool) (amount : Item -> K) (items : List Item) :
  total amount (items.filter kept) = total (fun item => if kept item then amount item else 0) items := by
  induction items with
  | nil => rfl
  | cons item items ih =>
    cases keeps : kept item with
    | true => rw [filter_cons_of_pos keeps, total_cons, total_cons, ih, if_pos keeps]
    | false =>
      have dropped : ¬ kept item := by
        rw [keeps]
        exact Bool.false_ne_true
      rw [filter_cons_of_neg dropped, total_cons, ih, if_neg dropped, zero_add]

theorem total_one (items : List Item) : total (fun _ => (1 : K)) items = items.length := by
  simp [total]

theorem pooled_eq_zero {weight part : Item -> K} {items : List Item} (empty : ∀ item ∈ items, part item = 0) :
  pooled weight part items = 0 := by
  have nothing : total part items = 0 := by
    rw [total_congr empty]
    simp [total]
  unfold pooled
  rw [nothing, zero_div]

theorem pooled_emptied {weight part : Item -> K} {item spent : Item} (sameWeight : weight spent = weight item)
  (empty : part spent = 0) (first rest : List Item) :
  pooled weight part (first ++ spent :: rest) = total part (first ++ rest) / total weight (first ++ item :: rest) := by
  unfold pooled
  simp [total_append, total_cons, sameWeight, empty]

theorem others_eq (weight part : Item -> K) (item : Item) (first rest : List Item) :
  total part (first ++ rest) / total weight (first ++ item :: rest) =
    pooled weight part (first ++ item :: rest) - part item / total weight (first ++ item :: rest) := by
  unfold pooled
  rw [<- sub_div]
  simp only [total_append, total_cons]
  rw [add_left_comm (total part first), add_sub_cancel_left]

section Ordered

variable [LinearOrder K] [IsStrictOrderedRing K]

structure Within (weight part : Item -> K) (items : List Item) : Prop where
  nonneg : ∀ item ∈ items, 0 <= part item
  atMost : ∀ item ∈ items, part item <= weight item

variable {weight part : Item -> K} {items : List Item}

theorem total_nonneg {amount : Item -> K} (nonneg : ∀ item ∈ items, 0 <= amount item) : 0 <= total amount items := by
  refine sum_nonneg fun amount mem => ?_
  rcases mem_map.mp mem with ⟨item, inside, rfl⟩
  exact nonneg item inside

theorem total_mono {amount other : Item -> K} (below : ∀ item ∈ items, amount item <= other item) :
    total amount items <= total other items := sum_le_sum below

theorem Within.weight_nonneg (within : Within weight part items) : 0 <= total weight items :=
  total_nonneg fun item mem => (within.nonneg item mem).trans (within.atMost item mem)

theorem Within.pooled_fraction (within : Within weight part items) :
  0 <= pooled weight part items /\ pooled weight part items <= 1 := by
  constructor
  · exact div_nonneg (total_nonneg within.nonneg) within.weight_nonneg
  · exact div_le_one_of_le₀ (total_mono within.atMost) within.weight_nonneg

theorem pooled_mono {other : Item -> K} (weights : 0 <= total weight items)
  (below : ∀ item ∈ items, part item <= other item) : pooled weight part items <= pooled weight other items :=
  div_le_div_of_nonneg_right (total_mono below) weights

variable {item : Item} {first rest : List Item}

theorem Within.others_bounds (within : Within weight part (first ++ item :: rest)) :
  pooled weight part (first ++ item :: rest) - share weight (first ++ item :: rest) item <=
      total part (first ++ rest) / total weight (first ++ item :: rest) /\
    total part (first ++ rest) / total weight (first ++ item :: rest) <= pooled weight part (first ++ item :: rest) := by
  have mem : item ∈ first ++ item :: rest := mem_append_right _ mem_cons_self
  have own : part item / total weight (first ++ item :: rest) <= share weight (first ++ item :: rest) item :=
    div_le_div_of_nonneg_right (within.atMost item mem) within.weight_nonneg
  have nonneg : 0 <= part item / total weight (first ++ item :: rest) :=
    div_nonneg (within.nonneg item mem) within.weight_nonneg
  rw [others_eq]
  constructor <;> linarith

end Ordered

end Shares

end BananaChat.Foundation
