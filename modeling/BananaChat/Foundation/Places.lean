import Mathlib.Data.List.Basic

namespace BananaChat.Foundation

open List

universe u

/-!
# Every place of a log

A law of a log often says what stands before an event and what stands after it. `Everywhere`
asks such a law of each place.
-/

variable {Event : Type u}

def Everywhere (law : List Event -> Event -> List Event -> Prop) (log : List Event) : Prop :=
  ∀ before event after, log = before ++ event :: after -> law before event after

namespace Everywhere

variable {law : List Event -> Event -> List Event -> Prop} {first second : List Event}

theorem nil : Everywhere law [] := by
  intro before event after split
  exact absurd split.symm (append_ne_nil_of_right_ne_nil before (cons_ne_nil event after))

theorem mono {other : List Event -> Event -> List Event -> Prop}
  (weaker : ∀ before event after, law before event after -> other before event after) {log : List Event}
  (obeyed : Everywhere law log) : Everywhere other log := by
  intro before event after split
  exact weaker before event after (obeyed before event after split)

theorem append (left : Everywhere (fun before event after => law before event (after ++ second)) first)
  (right : Everywhere (fun before event after => law (first ++ before) event after) second) :
  Everywhere law (first ++ second) := by
  intro before event after split
  rcases append_eq_append_iff.mp split with ⟨middle, joined, rest⟩ | ⟨middle, joined, rest⟩
  · rw [joined]
    exact right middle event after rest
  · cases middle with
    | nil =>
      rw [append_nil] at joined
      have place : law (first ++ []) event after := right [] event after rest.symm
      rw [append_nil, joined] at place
      exact place
    | cons head tail =>
      rw [cons_append, cons.injEq] at rest
      rw [rest.2, rest.1]
      exact left before head tail joined

theorem singleton {event : Event} (here : law [] event []) : Everywhere law [event] := by
  intro _ other after split
  rcases append_eq_singleton_iff.mp split.symm with ⟨none, one⟩ | ⟨_, none⟩
  · rw [cons.injEq] at one
    rw [none, one.1, one.2]
    exact here
  · exact absurd none (cons_ne_nil other after)

theorem of_forall {log : List Event}
  (each : ∀ before event after, (∀ other ∈ before, other ∈ log) -> event ∈ log -> law before event after) :
  Everywhere law log := by
  intro before _ _ split
  apply each
  · intro _ mem
    rw [split]
    exact mem_append_left _ mem
  · rw [split]
    exact mem_append_right before mem_cons_self

end Everywhere
end BananaChat.Foundation
