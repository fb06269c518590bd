import BananaChat.Allowances.Admission

namespace BananaChat.Allowances

open Foundation Limits

/-!
# What a provider's capacity scales the limits by

`capacityFactor` counts twentieths: the remaining fraction, doubled, in steps of 5 %.
-/

def knownLeft (capacity : Site.Capacity) : List ℚ := [capacity.windowLeft, capacity.weeklyLeft].filterMap id

def NothingLeft (capacity : Site.Capacity) : Prop := ∃ left ∈ knownLeft capacity, left <= 0

def NoLess : Option ℚ -> Option ℚ -> Prop
  | none, none => True
  | some before, some after => before <= after
  | _, _ => False

def capacitySteps (least : ℚ) : ℤ := roundEven (min 1 (max 0 (min 1 least) / Site.capacityComfort) / dynamicStep)

theorem capacitySteps_mono {small large : ℚ} (below : small <= large) : capacitySteps small <= capacitySteps large := by
  have clamped : max 0 (min 1 small) <= max 0 (min 1 large) := max_le_max (le_refl 0) (min_le_min (le_refl 1) below)
  have comfort : (0 : ℚ) <= Site.capacityComfort := by norm_num [Site.capacityComfort]
  have step : (0 : ℚ) <= dynamicStep := by norm_num [dynamicStep]
  refine roundEven_mono (div_le_div_of_nonneg_right ?_ step)
  exact min_le_min (le_refl 1) (div_le_div_of_nonneg_right clamped comfort)

theorem capacitySteps_range (least : ℚ) : 0 <= capacitySteps least /\ capacitySteps least <= 20 := by
  constructor
  · have lowest : capacitySteps (min 0 least) = 0 := by
      have clamped : max (0 : ℚ) (min 1 (min 0 least)) = 0 := max_eq_left ((min_le_right _ _).trans (min_le_left _ _))
      rw [capacitySteps, clamped]
      decide +kernel
    rw [<- lowest]
    exact capacitySteps_mono (min_le_right _ _)
  · have highest : capacitySteps (max 1 least) = 20 := by
      have clamped : max (0 : ℚ) (min 1 (max 1 least)) = 1 := by
        rw [min_eq_left (le_max_left _ _)]
        norm_num
      rw [capacitySteps, clamped]
      decide +kernel
    rw [<- highest]
    exact capacitySteps_mono (le_max_right _ _)

theorem capacitySteps_zero_iff (least : ℚ) : capacitySteps least = 0 ↔ least <= 1 / 80 := by
  have nonneg : 0 <= min 1 (max 0 (min 1 least) / Site.capacityComfort) / dynamicStep := by
    unfold Site.capacityComfort dynamicStep
    positivity
  rw [capacitySteps, roundEven_eq_zero_iff nonneg]
  unfold Site.capacityComfort dynamicStep
  rw [div_le_iff₀ (by norm_num), min_le_iff, div_le_iff₀ (by norm_num), max_le_iff, min_le_iff]
  constructor
  · rintro (clash | ⟨_, clash | small⟩)
    · norm_num at clash
    · norm_num at clash
    · linarith
  · intro _
    exact .inr ⟨by norm_num, .inr (by linarith)⟩

variable {capacity : Site.Capacity}

theorem capacityFactor_unknown (unknown : (knownLeft capacity).min? = none) : capacityFactor (some capacity) = 1 := by
  unfold knownLeft at unknown
  simp only [capacityFactor, unknown]

theorem capacityFactor_known {least : ℚ} (known : (knownLeft capacity).min? = some least) :
  capacityFactor (some capacity) = capacitySteps least / 20 := by
  have steps : capacityFactor (some capacity) = roundDecimals 2 (capacitySteps least * dynamicStep) := by
    unfold knownLeft at known
    simp only [capacityFactor, known, capacitySteps]
  have twentieths : (capacitySteps least : ℚ) * dynamicStep = capacitySteps least / 20 := by
    unfold dynamicStep
    ring
  rw [steps, twentieths]
  refine roundDecimals_exact 2 (5 * capacitySteps least) ?_
  push_cast
  ring

theorem capacityFactor_unit (capacity : Site.Capacity) :
  0 <= capacityFactor (some capacity) /\ capacityFactor (some capacity) <= 1 := by
  cases known : (knownLeft capacity).min? with
  | none =>
    rw [capacityFactor_unknown known]
    exact ⟨zero_le_one, le_refl 1⟩
  | some least =>
    have range := capacitySteps_range least
    have low : (0 : ℚ) <= capacitySteps least := Int.cast_nonneg range.1
    have high : (capacitySteps least : ℚ) <= 20 := by exact_mod_cast range.2
    rw [capacityFactor_known known]
    constructor
    · exact div_nonneg low (by norm_num)
    · rw [div_le_one (by norm_num)]
      exact high

variable {before after : Site.Capacity}

section

variable (window : NoLess before.windowLeft after.windowLeft) (weekly : NoLess before.weeklyLeft after.weeklyLeft)
include window weekly

theorem least_noLess : NoLess (knownLeft before).min? (knownLeft after).min? := by
  rcases before with ⟨_ | windowBefore, _ | weeklyBefore⟩ <;> rcases after with ⟨_ | windowAfter, _ | weeklyAfter⟩ <;>
    first
    | exact window.elim
    | exact weekly.elim
    | skip
  · trivial
  · exact weekly
  · exact window
  · exact min_le_min window weekly

theorem capacityFactor_mono : capacityFactor (some before) <= capacityFactor (some after) := by
  have least := least_noLess window weekly
  cases known : (knownLeft before).min? with
  | none =>
    cases knownAfter : (knownLeft after).min? with
    | none => rw [capacityFactor_unknown known, capacityFactor_unknown knownAfter]
    | some leastAfter =>
      rw [known, knownAfter] at least
      exact least.elim
  | some leastBefore =>
    cases knownAfter : (knownLeft after).min? with
    | none =>
      rw [known, knownAfter] at least
      exact least.elim
    | some leastAfter =>
      rw [known, knownAfter] at least
      have steps : (capacitySteps leastBefore : ℚ) <= capacitySteps leastAfter := Int.cast_le.mpr (capacitySteps_mono least)
      rw [capacityFactor_known known, capacityFactor_known knownAfter]
      exact div_le_div_of_nonneg_right steps (by norm_num)

end

theorem capacityFactor_zero_iff (capacity : Site.Capacity) :
  capacityFactor (some capacity) = 0 ↔ ∃ left ∈ knownLeft capacity, left <= 1 / 80 := by
  cases known : (knownLeft capacity).min? with
  | none =>
    have empty : knownLeft capacity = [] := List.min?_eq_none_iff.mp known
    rw [capacityFactor_unknown known, empty]
    constructor
    · intro clash
      exact absurd clash one_ne_zero
    · rintro ⟨left, clash, _⟩
      cases clash
  | some least =>
    rcases List.min?_eq_some_iff.mp known with ⟨mem, smallest⟩
    rw [capacityFactor_known known, div_eq_zero_iff, Int.cast_eq_zero, capacitySteps_zero_iff]
    constructor
    · rintro (small | clash)
      · exact ⟨least, mem, small⟩
      · norm_num at clash
    · rintro ⟨left, inside, small⟩
      exact .inl ((smallest left inside).trans small)

theorem modelRefusal_capacity (site : Site) (now : ℚ) {user : Credits.User} {model : Credits.AiModel}
  (mem : user.admin = false) (unlocked : (site.modelOverride user.id model.id).locked = false) :
  modelRefusal now (site.modelLimits now user model) false ≠ none ↔ capacityFactor (site.report model.id) <= 0 := by
  have limits : (site.modelLimits now user model).admin = false /\ (site.modelLimits now user model).locked = false /\
      (site.modelLimits now user model).capacity = capacityFactor (site.report model.id) := by
    unfold Site.modelLimits
    rw [mem]
    exact ⟨rfl, unlocked, rfl⟩
  unfold modelRefusal
  rw [limits.1, limits.2.1, limits.2.2]
  by_cases spent : capacityFactor (site.report model.id) <= 0
  · simp [spent]
  · simp [spent]

end BananaChat.Allowances
