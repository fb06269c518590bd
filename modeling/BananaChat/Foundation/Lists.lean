import Mathlib.Data.List.Basic

namespace BananaChat.Foundation

open List

universe u

variable {T : Type u} {items : List T} {item last : T}

theorem mem_snoc : item ∈ items ++ [last] ↔ item ∈ items \/ item = last := by
  rw [mem_append, mem_singleton]

theorem forall_mem_snoc {property : T -> Prop} (before : ∀ item ∈ items, property item) (new : property last) :
  ∀ item ∈ items ++ [last], property item :=
  forall_mem_append.mpr ⟨before, forall_mem_singleton.mpr new⟩

theorem except_bind_ok {Error First Second : Type} {first : Except Error First} {rest : First -> Except Error Second} {result : Second}
  (isOk : (first >>= rest) = .ok result) : ∃ value, first = .ok value /\ rest value = .ok result := by
  cases first with
  | error failure => cases isOk
  | ok value => exact ⟨value, rfl, isOk⟩

end BananaChat.Foundation
