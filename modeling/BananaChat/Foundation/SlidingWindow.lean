import Mathlib.Algebra.Order.Group.Defs
import Mathlib.Data.List.Count
import Mathlib.Data.List.Perm.Subperm

namespace BananaChat.Foundation

open List

universe u

/-!
# At most so many events in any span

Events are counted when they happen. An event is let in when fewer than `limit` of the events
that count lie less than `width` before it.
-/

namespace SlidingWindow

variable {T : Type u} [AddCommGroup T] [LinearOrder T] [IsOrderedAddMonoid T]

/-- Whether a moment lies in the span of a width that begins at `start`. -/
def inSpan (start width moment : T) : Bool := start <= moment /\ moment < start + width

def recent (now width moment : T) : Bool := now - width < moment

/-- No span of the width holds more than `limit` of the moments. -/
def Bounded (limit : ℕ) (width : T) (moments : List T) : Prop := ∀ start, moments.countP (inSpan start width) <= limit

omit [IsOrderedAddMonoid T] in
theorem bounded_nil (limit : ℕ) (width : T) : Bounded limit width [] := fun _ => Nat.zero_le limit

omit [IsOrderedAddMonoid T] in
theorem Bounded.subperm {limit : ℕ} {width : T} {moments fewer : List T} (bounded : Bounded limit width moments)
  (subperm : fewer.Subperm moments) : Bounded limit width fewer :=
  fun start => Nat.le_trans (subperm.countP_le _) (bounded start)

theorem recent_of_inSpan {start width now moment : T} (here : inSpan start width now)
  (shared : inSpan start width moment) : recent now width moment := by
  have bounds := of_decide_eq_true here
  have late := of_decide_eq_true shared
  apply decide_eq_true
  exact lt_of_lt_of_le (sub_lt_iff_lt_add.mpr bounds.2) late.1

theorem Bounded.append {limit : ℕ} {width now : T} {moments : List T} (bounded : Bounded limit width moments)
  (few : moments.countP (recent now width) < limit) : Bounded limit width (moments ++ [now]) := by
  intro start
  rw [countP_append]
  cases here : inSpan start width now with
  | false =>
    rw [countP_singleton, here]
    exact bounded start
  | true =>
    have fewer : moments.countP (inSpan start width) <= moments.countP (recent now width) := by
      apply countP_mono_left
      intro _ _ shared
      exact recent_of_inSpan here shared
    rw [countP_singleton, here]
    exact Nat.lt_of_le_of_lt fewer few

end SlidingWindow
end BananaChat.Foundation
