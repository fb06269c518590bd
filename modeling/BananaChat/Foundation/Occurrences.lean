import Mathlib.Data.List.Infix

namespace BananaChat.Foundation

open List

/-!
# Where one list stands in another

A search from the left finds the occurrences that are apart: after one of them it goes on behind it.
-/

variable {Item : Type}

/-- `part` stands in `whole` from `position` on. -/
def OccursAt (part whole : List Item) (position : ℕ) : Prop :=
  part <+: whole.drop position /\ position <= whole.length

variable {part rest : List Item} {position : ℕ} {item : Item}

theorem occursAt_iff {whole : List Item} : OccursAt part whole position ↔
    ∃ before after, whole = before ++ part ++ after /\ before.length = position := by
  constructor
  · rintro ⟨⟨after, joined⟩, within⟩
    refine ⟨whole.take position, after, ?_, length_take_of_le within⟩
    rw [append_assoc, joined, take_append_drop]
  · rintro ⟨_, after, rfl, rfl⟩
    refine ⟨⟨after, ?_⟩, ?_⟩
    · rw [append_assoc, drop_left]
    · rw [append_assoc, length_append]
      exact Nat.le_add_right _ _

theorem occursAt_cons : OccursAt part (item :: rest) (position + 1) ↔ OccursAt part rest position := by
  unfold OccursAt
  rw [drop_succ_cons, length_cons, Nat.add_le_add_iff_right]

theorem not_occursAt_nil (nonempty : part ≠ []) (position : ℕ) : ¬ OccursAt part [] position := by
  rintro ⟨begins, _⟩
  rw [drop_nil, prefix_nil] at begins
  exact nonempty begins

theorem occursAt_drop {whole : List Item} {place : ℕ} (within : place <= whole.length) :
  OccursAt part (whole.drop place) position ↔ OccursAt part whole (place + position) := by
  unfold OccursAt
  rw [drop_drop, length_drop]
  refine and_congr Iff.rfl ?_
  constructor
  · intro small
    omega
  · intro _
    omega

section Search

variable [DecidableEq Item]

/-- How often `part` is found behind the next `skip` items. -/
def countFrom (part : List Item) : ℕ -> List Item -> ℕ
  | _, [] => 0
  | skip + 1, _ :: rest => countFrom part skip rest
  | 0, item :: rest =>
    if part.isPrefixOf (item :: rest) then countFrom part (part.length - 1) rest + 1
    else countFrom part 0 rest

/-- How often `part` is found; the empty list stands before every item and behind the last. -/
def countApart (part whole : List Item) : ℕ :=
  if part = [] then whole.length + 1 else countFrom part 0 whole

/-- Replace the first occurrence of `part`. -/
def replaceFirst (part other : List Item) : List Item -> List Item
  | [] => if part = [] then other else []
  | item :: rest =>
    if part.isPrefixOf (item :: rest) then other ++ (item :: rest).drop part.length
    else item :: replaceFirst part other rest

theorem isPrefixOf_iff : part.isPrefixOf (item :: rest) ↔ OccursAt part (item :: rest) 0 := by
  rw [ isPrefixOf_iff_prefix]
  exact ⟨fun begins => ⟨begins, Nat.zero_le _⟩, fun occurs => occurs.1⟩

theorem countFrom_skip (part : List Item) (skip : ℕ) (whole : List Item) :
  countFrom part skip whole = countFrom part 0 (whole.drop skip) := by
  induction whole generalizing skip with
  | nil =>
    cases skip with
    | zero | succ skip => rfl
  | cons item rest ih =>
    cases skip with
    | zero => rfl
    | succ skip => exact ih skip

theorem countFrom_found (nonempty : part ≠ []) (found : OccursAt part (item :: rest) 0) :
  countFrom part 0 (item :: rest) = countFrom part 0 ((item :: rest).drop part.length) + 1 := by
  obtain ⟨size, isSize⟩ := Nat.exists_eq_succ_of_ne_zero (mt length_eq_zero_iff.mp nonempty)
  rw [countFrom, if_pos (isPrefixOf_iff.mpr found), countFrom_skip, isSize]
  rfl

theorem countFrom_passed (apart : ¬ OccursAt part (item :: rest) 0) :
  countFrom part 0 (item :: rest) = countFrom part 0 rest := by
  rw [countFrom, if_neg fun begins => apart (isPrefixOf_iff.mp begins)]

theorem countFrom_zero (nonempty : part ≠ []) (whole : List Item) :
  countFrom part 0 whole = 0 ↔ ∀ position, ¬ OccursAt part whole position := by
  induction whole with
  | nil => exact ⟨fun _ => not_occursAt_nil nonempty, fun _ => rfl⟩
  | cons item rest ih =>
    by_cases found : OccursAt part (item :: rest) 0
    · rw [countFrom_found nonempty found]
      exact ⟨fun clash => absurd clash (Nat.succ_ne_zero _), fun nowhere => absurd found (nowhere 0)⟩
    · rw [countFrom_passed found, ih]
      constructor
      · intro nowhere position
        cases position with
        | zero => exact found
        | succ position => exact fun occurs => nowhere position (occursAt_cons.mp occurs)
      · exact fun nowhere position occurs => nowhere (position + 1) (occursAt_cons.mpr occurs)

theorem countFrom_one (nonempty : part ≠ []) (whole : List Item) :
  countFrom part 0 whole = 1 ↔ ∃ first, OccursAt part whole first /\
    ∀ position, OccursAt part whole position -> first <= position /\ position < first + part.length := by
  induction whole with
  | nil =>
    constructor
    · intro clash
      cases clash
    · rintro ⟨first, occurs, _⟩
      exact absurd occurs (not_occursAt_nil nonempty first)
  | cons item rest ih =>
    by_cases found : OccursAt part (item :: rest) 0
    · have within : part.length <= (item :: rest).length := found.1.length_le
      rw [countFrom_found nonempty found, Nat.add_eq_right, countFrom_zero nonempty]
      constructor
      · intro nowhere
        refine ⟨0, found, ?_⟩
        intro position occurs
        refine ⟨Nat.zero_le _, ?_⟩
        by_contra! far
        apply nowhere (position - part.length)
        rw [occursAt_drop within]
        rwa [show part.length + (position - part.length) = position by omega]
      · rintro ⟨first, _, overlap⟩ position occurs
        have atFront := (overlap 0 found).1
        have near := (overlap _ ((occursAt_drop within).mp occurs)).2
        omega
    · rw [countFrom_passed found, ih]
      constructor
      · rintro ⟨first, occurs, overlap⟩
        refine ⟨first + 1, occursAt_cons.mpr occurs, ?_⟩
        intro position later
        cases position with
        | zero => exact absurd later found
        | succ position =>
          have near := overlap position (occursAt_cons.mp later)
          omega
      · rintro ⟨first, occurs, overlap⟩
        cases first with
        | zero => exact absurd occurs found
        | succ first =>
          refine ⟨first, occursAt_cons.mp occurs, ?_⟩
          intro position later
          have near := overlap (position + 1) (occursAt_cons.mpr later)
          omega

theorem replaceFirst_split {other before after : List Item} (nonempty : part ≠ [])
  (first : ∀ position, OccursAt part (before ++ part ++ after) position -> before.length <= position) :
  replaceFirst part other (before ++ part ++ after) = before ++ other ++ after := by
  induction before with
  | nil =>
    cases part with
    | nil => exact absurd rfl nonempty
    | cons head tail =>
      have begins : (head :: tail).isPrefixOf (head :: (tail ++ after)) :=
        isPrefixOf_iff_prefix.mpr ⟨after, rfl⟩
      change (if (head :: tail).isPrefixOf (head :: (tail ++ after)) then
        other ++ (head :: (tail ++ after)).drop (head :: tail).length else _) = _
      rw [if_pos begins, <- cons_append, drop_left]
      rfl
  | cons item rest ih =>
    rw [cons_append, cons_append] at first ⊢
    have apart : ¬ part.isPrefixOf (item :: (rest ++ part ++ after)) := by
      intro begins
      exact absurd (first 0 (isPrefixOf_iff.mp begins)) (Nat.not_succ_le_zero _)
    rw [replaceFirst, if_neg apart, ih]
    · rfl
    · intro position occurs
      exact Nat.le_of_succ_le_succ (first (position + 1) (occursAt_cons.mpr occurs))

end Search

end BananaChat.Foundation
