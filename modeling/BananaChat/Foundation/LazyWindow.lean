import Mathlib.Algebra.Order.Group.Defs
import BananaChat.Foundation.Lists

namespace BananaChat.Foundation

open List

universe u

/-!
# Windows that open at the first visit

A window of fixed length opens at the first visit that finds none open, and stays open for visits
before its end; a visit at its exact end opens the next one.
-/

namespace LazyWindow

variable {T : Type u} [AddCommGroup T] [LinearOrder T] [IsOrderedAddMonoid T]

def renew (length : T) (current : Option T) (now : T) : T :=
  match current with
  | none => now
  | some start => if now < start + length then start else now

/-- The visits so far, with the starts of their windows, and the window opened
last. -/
structure Windowed (length : T) (current : Option T) (visits : List (T × T)) : Prop where
  inside : ∀ visit ∈ visits, visit.2 <= visit.1 /\ visit.1 < visit.2 + length
  earlier : ∀ visit ∈ visits,
    ∃ start, current = some start /\ (visit.2 = start \/ visit.2 + length <= start)
  apart : ∀ first second, first ∈ visits -> second ∈ visits ->
    first.2 = second.2 \/ first.2 + length <= second.2 \/ second.2 + length <= first.2

omit [IsOrderedAddMonoid T] in
theorem windowed_nil (length : T) (current : Option T) : Windowed length current [] where
  inside := fun _ mem => by cases mem
  earlier := fun _ mem => by cases mem
  apart := fun _ _ mem => by cases mem

variable {length : T} {current : Option T} {visits : List (T × T)}

theorem Windowed.visit (positive : 0 < length) (windowed : Windowed length current visits) (now : T)
  (notBefore : ∀ start, current = some start -> start <= now) :
  Windowed length (some (renew length current now)) (visits ++ [(now, renew length current now)]) := by
  have within : renew length current now <= now /\ now < renew length current now + length := by
    cases current with
    | none => exact ⟨le_refl now, lt_add_of_pos_right now positive⟩
    | some start =>
      simp only [renew]
      split
      · exact ⟨notBefore start rfl, by assumption⟩
      · exact ⟨le_refl now, lt_add_of_pos_right now positive⟩
  -- the new start is the old one, or lies at or after its end
  have old : ∀ visit ∈ visits,
      visit.2 = renew length current now \/ visit.2 + length <= renew length current now := by
    intro visit mem
    rcases windowed.earlier visit mem with ⟨start, isCurrent, before⟩
    subst isCurrent
    simp only [renew]
    split
    · exact before
    · have ended : start + length <= now := not_lt.mp (by assumption)
      rcases before with same | apart
      · exact .inr (same ▸ ended)
      · exact .inr (apart.trans ((le_add_of_nonneg_right positive.le).trans ended))
  constructor
  · intro visit mem
    rcases mem_snoc.mp mem with before | last
    · exact windowed.inside visit before
    · cases last
      exact within
  · intro visit mem
    refine ⟨_, rfl, ?_⟩
    rcases mem_snoc.mp mem with before | last
    · exact old visit before
    · cases last
      exact .inl rfl
  · intro first second firstMember secondMember
    rcases mem_append.mp firstMember with firstBefore | firstLast <;>
      rcases mem_append.mp secondMember with secondBefore | secondLast
    · exact windowed.apart first second firstBefore secondBefore
    · cases mem_singleton.mp secondLast
      rcases old first firstBefore with same | apart
      · exact .inl same
      · exact .inr (.inl apart)
    · cases mem_singleton.mp firstLast
      rcases old second secondBefore with same | apart
      · exact .inl same.symm
      · exact .inr (.inr apart)
    · cases mem_singleton.mp firstLast
      cases mem_singleton.mp secondLast
      exact .inl rfl

omit [IsOrderedAddMonoid T] in
theorem Windowed.existsUnique (windowed : Windowed length current visits) (visit : T × T) (mem : visit ∈ visits) :
  ExistsUnique fun start => start ∈ visits.map Prod.snd /\ start <= visit.1 /\ visit.1 < start + length := by
  refine ⟨visit.2, ⟨mem_map.mpr ⟨visit, mem, rfl⟩, windowed.inside visit mem⟩, ?_⟩
  rintro _ ⟨opened, started, notEnded⟩
  rcases mem_map.mp opened with ⟨other, otherIn, rfl⟩
  have range := windowed.inside visit mem
  rcases windowed.apart other visit otherIn mem with same | before | after
  · exact same
  · exact absurd (notEnded.trans_le before) (not_lt.mpr range.1)
  · exact absurd (range.2.trans_le after) (not_lt.mpr started)

end LazyWindow
end BananaChat.Foundation
