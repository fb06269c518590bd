import Mathlib
import BananaChat.Foundation.Lists

namespace BananaChat.Foundation

open List

universe u v

/-!
# Counting in periods

A period opens at the first visit after the former one has ended, and where it ends is a function of
where it opened.
-/

namespace Periods

variable {T : Type u} {M : Type v} [LinearOrder T] (ends : T -> T)

def renewed (current : Option T) (now : T) : T :=
  match current with
  | none => now
  | some start => if ends start <= now then now else start

def opened (visits : List (T × M)) : Option T :=
  visits.foldl (fun current visit => some (renewed ends current visit.1)) none

variable {ends} {visits : List (T × M)}

theorem opened_append (visit : T × M) : opened ends (visits ++ [visit]) = some (renewed ends (opened ends visits) visit.1) := by
  simp [opened]

theorem opened_bounds (later : ∀ start, start < ends start) (ordered : visits.Pairwise fun first second => first.1 <= second.1)
  {start : T} (current : opened ends visits = some start) :
  (∃ visit ∈ visits, visit.1 = start) /\ ∀ visit ∈ visits, visit.1 < ends start := by
  induction visits using reverseRecOn generalizing start with
  | nil => cases current
  | append_singleton visits visit ih =>
    rw [pairwise_append] at ordered
    rw [opened_append, Option.some_inj] at current
    have last : ∀ other ∈ visits, other.1 <= visit.1 := fun other mem =>
      ordered.2.2 other mem visit (mem_singleton_self visit)
    have fresh : start = visit.1 -> (∃ other ∈ visits ++ [visit], other.1 = start) /\
        ∀ other ∈ visits ++ [visit], other.1 < ends start := by
      rintro rfl
      refine ⟨⟨visit, mem_append_right _ (mem_singleton_self visit), rfl⟩, fun other mem => ?_⟩
      rcases mem_snoc.mp mem with earlier | same
      · exact (last other earlier).trans_lt (later _)
      · rw [same]
        exact later _
    cases before : opened ends visits with
    | none =>
      rw [before] at current
      exact fresh current.symm
    | some former =>
      rw [before, renewed] at current
      split at current
      · exact fresh current.symm
      · rename_i running
        subst current
        rcases ih ordered.1 before with ⟨⟨other, mem, same⟩, inside⟩
        refine ⟨⟨other, mem_append_left _ mem, same⟩, fun other mem => ?_⟩
        rcases mem_snoc.mp mem with earlier | same
        · exact inside other earlier
        · rw [same]
          exact not_le.mp running

variable [AddCommMonoid M]

def amountSince (start : T) (visits : List (T × M)) : M := ((visits.filter (start <= ·.1)).map Prod.snd).sum

def shown (ends : T -> T) (visits : List (T × M)) (now : T) : M :=
  match opened ends visits with
  | none => 0
  | some start => if ends start <= now then 0 else amountSince start visits

theorem amountSince_append (start : T) (visit : T × M) :
  amountSince start (visits ++ [visit]) = amountSince start visits + if start <= visit.1 then visit.2 else 0 := by
  unfold amountSince
  by_cases inside : start <= visit.1 <;> simp [inside]

theorem amountSince_eq_zero {start : T} (before : ∀ visit ∈ visits, visit.1 < start) : amountSince start visits = 0 := by
  have nothing : visits.filter (start <= ·.1) = [] := by
    refine filter_eq_nil_iff.mpr fun visit mem => ?_
    rw [decide_eq_true_eq]
    exact not_le.mpr (before visit mem)
  unfold amountSince
  rw [nothing]
  rfl

def Counted (ends : T -> T) (visits : List (T × M)) (used : M) (resetsAt : Option T) : Prop :=
  resetsAt = (opened ends visits).map ends /\ used = match opened ends visits with
      | none => 0
      | some start => amountSince start visits

theorem counted_nil (ends : T -> T) : Counted ends ([] : List (T × M)) 0 none := ⟨rfl, rfl⟩

theorem Counted.shown_eq {used : M} {resetsAt : Option T} (counted : Counted ends visits used resetsAt) (now : T) :
  shown ends visits now = if resetsAt.any (· <= now) then 0 else used := by
  rcases counted with ⟨rfl, rfl⟩
  unfold shown
  cases opened ends visits with
  | none | some start => simp

theorem Counted.visit {used : M} {resetsAt : Option T} (counted : Counted ends visits used resetsAt)
  (later : ∀ start, start < ends start) {now : T} {amount : M}
  (ordered : (visits ++ [(now, amount)]).Pairwise fun first second => first.1 <= second.1) :
  Counted ends (visits ++ [(now, amount)])
    ((if resetsAt.any (· <= now) then 0 else used) + amount)
    (if resetsAt.all (· <= now) then some (ends now) else resetsAt) := by
  rcases counted with ⟨rfl, rfl⟩
  have last : ∀ visit ∈ visits, visit.1 <= now := fun visit mem =>
    (pairwise_append.mp ordered).2.2 visit mem _ (mem_singleton_self _)
  have before := (pairwise_append.mp ordered).1
  unfold Counted
  rw [opened_append]
  cases current : opened ends visits with
  | none =>
    have empty : visits = [] := by
      rcases eq_nil_or_concat visits with nil | ⟨_, visit, rfl⟩
      · exact nil
      · rw [concat_eq_append, opened_append] at current
        cases current
    subst empty
    simp [renewed, amountSince]
  | some start =>
    rcases opened_bounds later before current with ⟨⟨visit, mem, opens⟩, inside⟩
    by_cases ended : ends start <= now
    · have none : amountSince now visits = 0 := amountSince_eq_zero fun other mem => (inside other mem).trans_le ended
      simp [renewed, ended, amountSince_append, none]
    · have after : start <= now := opens ▸ last visit mem
      simp [renewed, ended, amountSince_append, after]

end Periods
end BananaChat.Foundation
