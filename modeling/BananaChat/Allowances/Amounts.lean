import BananaChat.Allowances.Compared

namespace BananaChat.Allowances

open Limits List

/-!
# The amount of a window

Everything `_window` does to an amount before it takes pledges off and rounds down is one
multiplication and one addition: by `growth`, and of `addition`.
-/

namespace WindowTerms

variable (terms : WindowTerms)

def dynamicGrowth (custom : Bool) : ℚ :=
  match terms.dynamic with
  | some factor => if terms.dynamicOn = true /\ factor ≠ 1 /\ ¬ (custom /\ factor < 1) then factor else 1
  | none => 1

def capacityGrowth : ℚ := if terms.capacity < 1 then terms.capacity else 1

def bonusGrowth : ℚ :=
  match terms.bonus with
  | .multiplier factor => factor
  | .none | .fixed _ => 1

def bonusAddition : ℚ :=
  match terms.bonus with
  | .fixed tokens => tokens
  | .none | .multiplier _ => 0

section

variable (period : Period)

def grantGrowth : ℚ := ((multiplierGrants period.scope terms.grants).map fun grant => grant.amount).prod

def grantAddition : ℚ := ((extraGrants period.scope terms.grants).map fun grant => grant.amount).sum

def growth (custom : Bool) : ℚ :=
  terms.dynamicGrowth custom * terms.capacityGrowth * terms.bonusGrowth * terms.grantGrowth period

def addition : ℚ := terms.bonusAddition * terms.grantGrowth period + terms.grantAddition period

end

structure Sound : Prop where
  dynamic : ∀ factor, terms.dynamic = some factor -> 0 <= factor
  capacity : 0 <= terms.capacity
  bonus : ∀ factor, terms.bonus = .multiplier factor -> 0 <= factor

theorem foldl_mul_amounts (grants : List GrantRow) (tokens : ℚ) :
  grants.foldl (fun tokens grant => tokens * grant.amount) tokens = tokens * (grants.map fun grant => grant.amount).prod := by
  induction grants generalizing tokens with
  | nil => exact (mul_one tokens).symm
  | cons grant rest ih =>
    rw [foldl_cons, ih, map_cons, prod_cons, mul_assoc]

theorem foldl_add_amounts (grants : List GrantRow) (tokens : ℚ) :
  grants.foldl (fun tokens grant => tokens + grant.amount) tokens = tokens + (grants.map fun grant => grant.amount).sum := by
  induction grants generalizing tokens with
  | nil => exact (add_zero tokens).symm
  | cons grant rest ih =>
    rw [foldl_cons, ih, map_cons, sum_cons, add_assoc]

theorem afterDynamic_eq (custom : Bool) (tokens : ℚ) : terms.afterDynamic custom tokens = tokens * terms.dynamicGrowth custom := by
  unfold afterDynamic dynamicGrowth
  cases terms.dynamic with
  | none => exact (mul_one tokens).symm
  | some factor =>
    dsimp only
    split
    · rfl
    · exact (mul_one tokens).symm

theorem afterCapacity_eq (tokens : ℚ) : terms.afterCapacity tokens = tokens * terms.capacityGrowth := by
  unfold afterCapacity capacityGrowth
  split
  · rfl
  · exact (mul_one tokens).symm

theorem afterBonus_eq (tokens : ℚ) : terms.afterBonus tokens = tokens * terms.bonusGrowth + terms.bonusAddition := by
  unfold afterBonus bonusGrowth bonusAddition
  cases terms.bonus with
  | none | multiplier factor | fixed extra => simp

theorem afterGrants_eq (period : Period) (tokens : ℚ) :
  terms.afterGrants period tokens = tokens * terms.grantGrowth period + terms.grantAddition period := by
  rw [afterGrants, foldl_add_amounts, foldl_mul_amounts]
  rfl

theorem amount_eq (period : Period) (custom : Bool) (tokens : ℚ) : terms.amount period custom tokens =
    whole (terms.afterRenounced (terms.growth period custom * tokens + terms.addition period)) := by
  rw [amount, afterGrants_eq, afterBonus_eq, afterCapacity_eq, afterDynamic_eq]
  congr 2
  unfold growth addition
  ring

variable {small large : ℚ}

theorem afterRenounced_mono (below : small <= large) : terms.afterRenounced small <= terms.afterRenounced large := by
  unfold afterRenounced
  split
  · exact max_le_max (le_refl 0) (by linarith)
  · exact below

theorem grantGrowth_nonneg (period : Period) : 0 <= terms.grantGrowth period := by
  refine prod_nonneg fun amount mem => ?_
  rcases mem_map.mp mem with ⟨grant, inside, rfl⟩
  have kind := of_decide_eq_true (mem_filter.mp inside).2
  exact le_trans (by norm_num) (grant.multiplies kind).1

variable {terms}

section

variable (sound : terms.Sound)
include sound

theorem Sound.dynamicGrowth_nonneg (custom : Bool) : 0 <= terms.dynamicGrowth custom := by
  unfold dynamicGrowth
  cases applied : terms.dynamic with
  | none => exact zero_le_one
  | some factor =>
    dsimp only
    split
    · exact sound.dynamic factor applied
    · exact zero_le_one

theorem Sound.capacityGrowth_nonneg : 0 <= terms.capacityGrowth := by
  unfold capacityGrowth
  split
  · exact sound.capacity
  · exact zero_le_one

theorem Sound.bonusGrowth_nonneg : 0 <= terms.bonusGrowth := by
  unfold bonusGrowth
  cases given : terms.bonus with
  | none | fixed tokens => exact zero_le_one
  | multiplier factor => exact sound.bonus factor given

theorem Sound.growth_nonneg (period : Period) (custom : Bool) : 0 <= terms.growth period custom :=
  mul_nonneg (mul_nonneg (mul_nonneg (sound.dynamicGrowth_nonneg custom) sound.capacityGrowth_nonneg)
    sound.bonusGrowth_nonneg) (terms.grantGrowth_nonneg period)

end

theorem dynamicGrowth_custom (terms : WindowTerms) : terms.dynamicGrowth false <= terms.dynamicGrowth true := by
  unfold dynamicGrowth
  cases terms.dynamic with
  | none => exact le_refl 1
  | some factor =>
    dsimp only
    by_cases low : factor < 1
    · have kept : ¬ (terms.dynamicOn /\ factor ≠ 1 /\ ¬ ((true : Bool) /\ factor < 1)) :=
        fun applies => applies.2.2 ⟨rfl, low⟩
      split
      · exact low.le
      · exact le_refl 1
    · have same : (terms.dynamicOn /\ factor ≠ 1 /\ ¬ ((true : Bool) /\ factor < 1)) ↔
          (terms.dynamicOn /\ factor ≠ 1 /\ ¬ ((false : Bool) /\ factor < 1)) := by
        simp [low]
      rw [if_congr same rfl rfl]

section

variable (sound : terms.Sound) (period : Period)
include sound period

theorem Sound.growth_custom : terms.growth period false <= terms.growth period true := by
  have dynamic := dynamicGrowth_custom terms
  have capacity := sound.capacityGrowth_nonneg
  have bonus := sound.bonusGrowth_nonneg
  have grants := terms.grantGrowth_nonneg period
  unfold growth
  gcongr

theorem Sound.amount_mono (custom : Bool) (below : small <= large) :
  terms.amount period custom small <= terms.amount period custom large := by
  rw [amount_eq, amount_eq]
  refine whole_mono (terms.afterRenounced_mono ?_)
  have grown := mul_le_mul_of_nonneg_left below (sound.growth_nonneg period custom)
  linarith

theorem Sound.amount_custom (nonneg : 0 <= small) (below : small <= large) :
  terms.amount period false small <= terms.amount period true large := by
  refine le_trans ?_ (sound.amount_mono period true below)
  rw [amount_eq, amount_eq]
  refine whole_mono (terms.afterRenounced_mono ?_)
  have grown := mul_le_mul_of_nonneg_right (sound.growth_custom period) nonneg
  linarith

end

end WindowTerms

theorem bonusFor_nonneg (site : Site) (userId : ℕ) (period : Period) : ∀ factor,
  site.bonusFor userId period = .multiplier factor -> 0 <= factor := by
  have own : ∀ factor, site.music.bonus userId = .multiplier factor -> 0 <= factor := by
    intro factor given
    unfold Music.bonus at given
    split at given
    · cases given
    · split at given
      · cases given
      · split at given
        · cases given
        · cases given
          cases site.music.creditMultiplier with
          | none => norm_num
          | some factor => exact le_max_left 0 factor
  intro factor given
  cases period with
  | window => exact own factor given
  | weekly =>
    unfold Site.bonusFor at given
    dsimp only at given
    split at given
    · cases given
    · exact own factor given

theorem poolTerms_sound (site : Site) (now : ℚ) (userId : ℕ) (pool : Pool) (period : Period) :
  (site.poolTerms now userId pool period).Sound := by
  refine ⟨fun factor applied => ?_, zero_le_one, bonusFor_nonneg site userId period⟩
  have dynamic : site.poolDynamic userId pool = some factor := applied
  unfold Site.poolDynamic at dynamic
  split at dynamic
  · cases dynamic
    exact le_trans (by norm_num [dynamicMin]) (Limits.Site.quantise_least _)
  · cases dynamic

theorem modelTerms_sound (site : Site) (now : ℚ) (userId modelId : ℕ) (period : Period) :
  (site.modelTerms now userId modelId period).Sound := by
  refine ⟨fun factor applied => ?_, capacityFactor_nonneg _, fun factor given => by cases given⟩
  have dynamic : site.modelDynamic userId modelId = some factor := applied
  unfold Site.modelDynamic at dynamic
  dsimp only at dynamic
  split at dynamic
  · cases dynamic
    exact le_trans (by norm_num [dynamicMin]) (Limits.Site.quantise_least _)
  · cases dynamic

end BananaChat.Allowances
