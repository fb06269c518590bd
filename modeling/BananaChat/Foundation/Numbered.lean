import Mathlib
import BananaChat.Foundation.Lists

namespace BananaChat.Foundation

open List

universe u

/-!
# Parties by their number

The parties of a system that only grows are a list, and a party's number is its place in it.
-/

namespace Numbered

variable {Party : Type u} {parties : List Party} {index : ℕ} {party : Party}

theorem get_set (found : parties[index]? = some party) (after : Party) (other : ℕ) :
  (parties.set index after)[other]? = if other = index then some after else parties[other]? := by
  by_cases same : other = index
  · subst same
    rw [if_pos rfl, List.getElem?_set_self (List.getElem?_eq_some_iff.mp found).1]
  · rw [if_neg same, getElem?_set_ne (same ·.symm)]

theorem get_append (joined : Party) (other : ℕ) :
  (parties ++ [joined])[other]? = if other = parties.length then some joined else parties[other]? := by
  rw [getElem?_append]
  by_cases inside : other < parties.length
  · rw [if_pos inside, if_neg (Nat.ne_of_lt inside)]
  · rw [if_neg inside]
    by_cases last : other = parties.length
    · rw [if_pos last, last, Nat.sub_self]
      rfl
    · have beyond : parties.length < other := by omega
      rw [if_neg last, getElem?_eq_none (Nat.le_of_not_lt inside), getElem?_eq_none]
      simp only [length_cons, length_nil]
      omega

section

variable (found : parties[index]? = some party)
include found

theorem countP_set (after : Party) (counted : Party -> Bool) :
  (parties.set index after).countP counted + (counted party).toNat =
    parties.countP counted + (counted after).toNat := by
  induction parties generalizing index with
  | nil => cases found
  | cons first rest ih =>
    cases index with
    | zero =>
      cases found
      simp only [set_cons_zero, countP_cons]
      cases counted party <;> cases counted after <;> simp only [Bool.toNat] <;> rfl
    | succ later =>
      have step := ih found
      simp only [set_cons_succ, countP_cons]
      omega

theorem sum_set (after : Party) (amount : Party -> ℕ) :
  ((parties.set index after).map amount).sum + amount party = (parties.map amount).sum + amount after := by
  induction parties generalizing index with
  | nil => cases found
  | cons first rest ih =>
    cases index with
    | zero =>
      cases found
      simp only [set_cons_zero, map_cons, sum_cons]
      omega
    | succ later =>
      have step := ih found
      simp only [set_cons_succ, map_cons, sum_cons]
      omega

theorem toNat_le_countP (counted : Party -> Bool) : (counted party).toNat <= parties.countP counted := by
  cases counts : counted party with
  | true => exact countP_pos_iff.mpr ⟨party, mem_of_getElem? found, counts⟩
  | false => exact Nat.zero_le _

end

universe v

variable {Key : Type v} {key : Party -> Option Key}

def Apart (key : Party -> Option Key) (parties : List Party) : Prop :=
  ∀ (first second : ℕ) (one other : Party) (belongs : Key), parties[first]? = some one -> parties[second]? = some other -> key one = some belongs ->
    key other = some belongs -> first = second

theorem apart_nil (key : Party -> Option Key) : Apart key [] := by
  intro _ _ _ _ _ found
  cases found

theorem Apart.mono (apart : Apart key parties) {fewer : Party -> Option Key}
  (still : ∀ party ∈ parties, ∀ belongs, fewer party = some belongs -> key party = some belongs) :
  Apart fewer parties := by
  intro first second one other belongs isFirst isSecond ofOne ofOther
  exact apart first second one other belongs isFirst isSecond (still one (mem_of_getElem? isFirst) belongs ofOne)
    (still other (mem_of_getElem? isSecond) belongs ofOther)

theorem Apart.set (apart : Apart key parties) (found : parties[index]? = some party) {after : Party}
  (takes : ∀ belongs, key after = some belongs ->
    key party = some belongs \/ ∀ other ∈ parties, key other ≠ some belongs) : Apart key (parties.set index after) := by
  intro first second one other belongs isFirst isSecond ofOne ofOther
  rw [get_set found] at isFirst isSecond
  by_cases atFirst : first = index
  · by_cases atSecond : second = index
    · exact atFirst.trans atSecond.symm
    · rw [if_pos atFirst] at isFirst
      rw [if_neg atSecond] at isSecond
      cases isFirst
      rcases takes belongs ofOne with had | nobody
      · exact atFirst.trans (apart index second party other belongs found isSecond had ofOther)
      · exact absurd ofOther (nobody other (mem_of_getElem? isSecond))
  · rw [if_neg atFirst] at isFirst
    by_cases atSecond : second = index
    · rw [if_pos atSecond] at isSecond
      cases isSecond
      rcases takes belongs ofOther with had | nobody
      · exact (apart first index one party belongs isFirst found ofOne had).trans atSecond.symm
      · exact absurd ofOne (nobody one (mem_of_getElem? isFirst))
    · rw [if_neg atSecond] at isSecond
      exact apart first second one other belongs isFirst isSecond ofOne ofOther

theorem Apart.append (apart : Apart key parties) {joined : Party}
  (fresh : ∀ belongs, key joined = some belongs -> ∀ other ∈ parties, key other ≠ some belongs) :
  Apart key (parties ++ [joined]) := by
  intro first second one other belongs isFirst isSecond ofOne ofOther
  rw [get_append] at isFirst isSecond
  by_cases atFirst : first = parties.length
  · by_cases atSecond : second = parties.length
    · exact atFirst.trans atSecond.symm
    · rw [if_pos atFirst] at isFirst
      rw [if_neg atSecond] at isSecond
      cases isFirst
      exact absurd ofOther (fresh belongs ofOne other (mem_of_getElem? isSecond))
  · rw [if_neg atFirst] at isFirst
    by_cases atSecond : second = parties.length
    · rw [if_pos atSecond] at isSecond
      cases isSecond
      exact absurd ofOne (fresh belongs ofOther one (mem_of_getElem? isFirst))
    · rw [if_neg atSecond] at isSecond
      exact apart first second one other belongs isFirst isSecond ofOne ofOther

theorem mem_set (found : parties[index]? = some party) {after other : Party} (mem : other ∈ parties.set index after) :
  other = after \/ ∃ place, place ≠ index /\ parties[place]? = some other := by
  rcases mem_iff_getElem?.mp mem with ⟨place, isPlace⟩
  rw [get_set found] at isPlace
  by_cases moved : place = index
  · rw [if_pos moved] at isPlace
    exact .inl (Option.some.inj isPlace).symm
  · rw [if_neg moved] at isPlace
    exact .inr ⟨place, moved, isPlace⟩

end Numbered
end BananaChat.Foundation
