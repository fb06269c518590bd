import BananaChat.Allowances.Models

namespace BananaChat.Allowances

open Limits List Option

/-!
# Base limits

`baseLimits` and `modelBase` give an account's own limits before anything temporary: what request
forms, approvals and pledges are measured against.
-/

/-- The result of `base_limits`. -/
structure Base where
  windowTokens : ℚ
  weeklyTokens : ℚ
  rateRules : List RuleBase
  windowEnabled : Bool
  weeklyEnabled : Bool
  rateEnabled : Bool

namespace Base

def tokens (base : Base) : Period -> ℚ
  | .window => base.windowTokens
  | .weekly => base.weeklyTokens

def enabled (base : Base) : Period -> Bool
  | .window => base.windowEnabled
  | .weekly => base.weeklyEnabled

end Base

/-- `tiered` of `_base`: what the policy allows an account of this tier. -/
def tiered (policy : WindowSection) (tier : Option Tier) : ℚ :=
  match tier with
  | some tier => if policy.autoTiers then whole (policy.tokens * tier.multiplier) else policy.tokens
  | none => policy.tokens

/-- `amount` of `_base`: the custom value, over the policy where it was approved automatically. -/
def baseAmount (policy : WindowSection) (override : Override) (tier : Option Tier) (period : Period) : ℚ :=
  match override.tokens period with
  | none => tiered policy tier
  | some value => if period.field ∈ override.automatic then max value (tiered policy tier) else value

/-- `_base`. -/
def baseOf (policy : Policy) (override : Override) (tier : Option Tier) (preferences : UserSettings) : Base :=
  let rules := override.rules.getD policy.rate.rules.val
  { windowTokens := baseAmount policy.window override tier .window
    weeklyTokens := baseAmount policy.weekly override tier .weekly
    rateRules := rules
    windowEnabled := !preferences.tokenExempt && (policy.window.enabled || override.windowTokens.isSome)
    weeklyEnabled := !preferences.tokenExempt && (policy.weekly.enabled || override.weeklyTokens.isSome)
    rateEnabled := !preferences.rateExempt && (policy.rate.enabled || override.hasRate) && !rules.isEmpty }

/-- `amount` of `model_base`. -/
def modelAmount (policy : ModelRules) (override : ModelOverride) (tier : Option Tier) (period : Period) : Option ℚ :=
  match override.tokens period with
  | some own => some own
  | none =>
    if policy.enabled then
      (policy.tokens period).map (fun value : ℕ =>
        match tier with
        | some tier => whole (value * tier.multiplier)
        | none => (value : ℚ))
    else none

namespace Site

variable (site : Site)

def baseLimits (userId : ℕ) (pool : Pool) : Base :=
  baseOf (site.policies pool) (site.override userId pool) (resolveTier (site.preferences userId).tierId site.tiers)
    (site.preferences userId)

def modelBase (userId modelId : ℕ) : Base :=
  let policy := site.modelRules modelId
  let override := site.modelOverride userId modelId
  let tier := site.modelTier userId modelId
  let window := modelAmount policy override tier .window
  let weekly := modelAmount policy override tier .weekly
  let rules := override.rules.getD (if policy.enabled then policy.rateRules.val else [])
  { windowTokens := window.getD 0
    weeklyTokens := weekly.getD 0
    rateRules := rules
    windowEnabled := site.modelTokensEnabled userId modelId && window.isSome
    weeklyEnabled := site.modelTokensEnabled userId modelId && weekly.isSome
    rateEnabled := site.modelRateEnabled userId modelId && !rules.isEmpty }

def withoutUnlimited : Site := { site with grants := site.grants.filter (·.kind ≠ .unlimited) }

end Site

theorem whole_natCast (amount : ℕ) : whole amount = amount := by
  have inside : ⌊(amount : ℚ) + 1 / 1000000⌋ = (amount : ℤ) := by
    rw [Int.floor_eq_iff]
    push_cast
    constructor <;> linarith
  unfold whole
  rw [inside]
  rfl

theorem whole_mono {small large : ℚ} (below : small <= large) : whole small <= whole large :=
  Int.cast_le.mpr (Int.floor_le_floor (by linarith))

theorem whole_whole (amount : ℚ) : whole (whole amount) = whole amount := by
  have inside : ⌊((⌊amount + 1 / 1000000⌋ : ℤ) : ℚ) + 1 / 1000000⌋ = ⌊amount + 1 / 1000000⌋ := by
    rw [Int.floor_eq_iff]
    constructor <;> linarith
  unfold whole
  rw [inside]

theorem whole_max (value : ℕ) (amount : ℚ) : whole (max (value : ℚ) (whole amount)) = max (value : ℚ) (whole amount) := by
  rcases max_choice (value : ℚ) (whole amount) with same | same
  · rw [same, whole_natCast]
  · rw [same, whole_whole]

theorem window_limited (period : Period) (enabled : Bool) (policyTokens : ℕ) (autoTiers : Bool) (customTokens : Option ℚ)
  (terms : WindowTerms) : (window period enabled policyTokens autoTiers customTokens terms).limited =
    (terms.limitedOverride.getD (enabled || customTokens.isSome) && (unlimitedGrants period.scope terms.grants).isEmpty) := by
  cases limited : terms.limitedOverride.getD (enabled || customTokens.isSome) with
  | false => simp only [window, limited, if_true, Bool.false_and]
  | true =>
    cases unlimited : unlimitedGrants period.scope terms.grants with
    | nil => simp only [window, limited, unlimited, Bool.true_eq_false, if_false, isEmpty_nil, Bool.and_true]
    | cons grant rest =>
      simp [window, limited, unlimited]

theorem window_base {period : Period} {enabled : Bool} {policyTokens : ℕ} {autoTiers : Bool} {customTokens : Option ℚ}
  {terms : WindowTerms} (limited : (window period enabled policyTokens autoTiers customTokens terms).limited) :
  (window period enabled policyTokens autoTiers customTokens terms).base =
      whole (customTokens.getD (policyTokens * terms.tierFactor autoTiers)) /\
    (window period enabled policyTokens autoTiers customTokens terms).tokens =
      terms.amount period customTokens.isSome (customTokens.getD (policyTokens * terms.tierFactor autoTiers)) := by
  rw [window_limited, Bool.and_eq_true] at limited
  rcases limited with ⟨on, free⟩
  have noGrant : unlimitedGrants period.scope terms.grants = [] := isEmpty_iff.mp free
  simp only [window, on, noGrant, Bool.true_eq_false, if_false]
  exact ⟨trivial, trivial⟩

section

variable (override : Override) (period : Period) (policy : WindowSection) (tier : Option Tier)
include override period policy tier

theorem whole_customAmount : whole ((customAmount override period policy tier).getD
      (policy.tokens * (if policy.autoTiers then (tier.map Tier.multiplier).getD 1 else 1))) =
    baseAmount policy override tier period := by
  have plain : whole (policy.tokens * (if policy.autoTiers then (tier.map Tier.multiplier).getD 1 else 1)) =
      tiered policy tier := by
    unfold tiered
    cases tier with
    | none => simp [whole_natCast]
    | some tier =>
      by_cases scales : policy.autoTiers
      · simp only [if_pos scales, map_some, getD_some]
      · simp only [if_neg scales, mul_one, whole_natCast]
  unfold customAmount baseAmount
  cases override.tokens period with
  | none => exact plain
  | some value =>
    by_cases floor : period.field ∈ override.automatic
    · simp only [if_neg (not_not_intro floor), getD_some, if_pos floor, whole_max]
      rw [plain]
    · simp only [if_pos floor, getD_some, if_neg floor, whole_natCast]

theorem customAmount_isSome : (customAmount override period policy tier).isSome = (override.tokens period).isSome := by
  unfold customAmount
  cases override.tokens period with
  | none => rfl
  | some value =>
    dsimp only
    split <;> rfl

end

section WithoutUnlimited

variable (site : Site)

theorem unlimitedGrants_filter (scope : GrantScope) (keeps : GrantRow -> Bool) {grants : List GrantRow}
  (limiting : ∀ grant ∈ grants, grant.kind ≠ .unlimited) : unlimitedGrants scope (grants.filter keeps) = [] := by
  refine filter_eq_nil_iff.mpr fun grant mem isUnlimited => ?_
  exact limiting grant (mem_filter.mp (mem_filter.mp mem).1).1 (of_decide_eq_true isUnlimited)

theorem withoutUnlimited_activeGrants (userId : ℕ) (stamp : ℤ) : ∀ grant,
  grant ∈ site.withoutUnlimited.activeGrants userId stamp -> grant.kind ≠ .unlimited := by
  intro _ mem
  exact of_decide_eq_true (mem_filter.mp (mem_filter.mp mem).1).2

end WithoutUnlimited

section Agreement

variable (site : Site) (now : ℚ)

section

variable (userId : ℕ) (pool : Pool) (period : Period)
include userId pool period

theorem pool_enabled :
  (site.poolTerms now userId pool period).limitedOverride.getD (((site.policies pool).period period).enabled ||
      (customAmount (site.override userId pool) period ((site.policies pool).period period)
        (site.poolTier userId pool)).isSome) =
    (site.baseLimits userId pool).enabled period := by
  rw [customAmount_isSome]
  have override : (site.poolTerms now userId pool period).limitedOverride =
      if (site.preferences userId).tokenExempt then some false else none := rfl
  rw [override]
  cases period <;> cases exempt : (site.preferences userId).tokenExempt <;>
    simp [Site.baseLimits, baseOf, Base.enabled, Policy.period, Override.tokens, exempt]

theorem poolWindow_limited : (site.poolWindow now userId pool period).limited =
    ((site.baseLimits userId pool).enabled period &&
      (unlimitedGrants period.scope (site.poolGrants userId pool ⌊now⌋)).isEmpty) := by
  have grants : (site.poolTerms now userId pool period).grants = site.poolGrants userId pool ⌊now⌋ := rfl
  unfold Site.poolWindow
  rw [window_limited, pool_enabled, grants]

theorem poolTier_factor (scales : ((site.policies pool).period period).autoTiers) :
  site.poolTier userId pool = resolveTier (site.preferences userId).tierId site.tiers := by
  unfold Site.poolTier
  cases period with
  | window =>
    have window : (site.policies pool).window.autoTiers := scales
    rw [window, Bool.true_or, if_pos rfl]
  | weekly =>
    have weekly : (site.policies pool).weekly.autoTiers := scales
    rw [weekly, Bool.or_true, if_pos rfl]

end

def Site.poolShare (userId : ℕ) (pool : Pool) (period : Period) : ℚ :=
  let policy := (site.policies pool).period period
  policy.tokens * (if policy.autoTiers then ((site.poolTier userId pool).map Tier.multiplier).getD 1 else 1)

theorem pool_base (userId : ℕ) (pool : Pool) (period : Period) :
  whole ((customAmount (site.override userId pool) period ((site.policies pool).period period)
      (site.poolTier userId pool)).getD (site.poolShare userId pool period)) =
    (site.baseLimits userId pool).tokens period := by
  have tiers : baseAmount ((site.policies pool).period period) (site.override userId pool) (site.poolTier userId pool) period =
      baseAmount ((site.policies pool).period period) (site.override userId pool)
        (resolveTier (site.preferences userId).tierId site.tiers) period := by
    have same : tiered ((site.policies pool).period period) (site.poolTier userId pool) =
        tiered ((site.policies pool).period period) (resolveTier (site.preferences userId).tierId site.tiers) := by
      by_cases scales : ((site.policies pool).period period).autoTiers
      · rw [poolTier_factor site userId pool period scales]
      · unfold tiered
        cases site.poolTier userId pool <;> cases resolveTier (site.preferences userId).tierId site.tiers <;>
          simp only [if_neg scales]
    simp only [baseAmount, same]
  unfold Site.poolShare
  rw [whole_customAmount, tiers]
  cases period <;> rfl

variable {userId : ℕ} {period : Period}

theorem poolWindow_base {pool : Pool} (limited : (site.poolWindow now userId pool period).limited) :
  (site.poolWindow now userId pool period).base = (site.baseLimits userId pool).tokens period :=
  (window_base limited).1.trans (pool_base site userId pool period)

theorem model_enabled (userId modelId : ℕ) (period : Period) :
  (site.modelTerms now userId modelId period).limitedOverride.getD
      (((site.modelRules modelId).enabled && ((site.modelRules modelId).tokens period).isSome) ||
        (((site.modelOverride userId modelId).tokens period).map fun value : ℕ => (value : ℚ)).isSome) =
    (site.modelBase userId modelId).enabled period := by
  have override : (site.modelTerms now userId modelId period).limitedOverride =
      if site.modelTokensEnabled userId modelId then none else some false := rfl
  have enabled : (site.modelBase userId modelId).enabled period = (site.modelTokensEnabled userId modelId &&
      (modelAmount (site.modelRules modelId) (site.modelOverride userId modelId) (site.modelTier userId modelId) period).isSome) := by
    cases period <;> rfl
  rw [override, enabled]
  unfold modelAmount
  cases counted : site.modelTokensEnabled userId modelId with
  | false => rfl
  | true =>
    cases (site.modelOverride userId modelId).tokens period with
    | some own => simp
    | none => cases (site.modelRules modelId).enabled <;> simp

theorem modelWindow_limited (userId modelId : ℕ) (period : Period) :
  (site.modelWindow now userId modelId period).limited = ((site.modelBase userId modelId).enabled period &&
      (unlimitedGrants period.scope (site.modelGrants userId modelId ⌊now⌋)).isEmpty) := by
  have grants : (site.modelTerms now userId modelId period).grants = site.modelGrants userId modelId ⌊now⌋ := rfl
  unfold Site.modelWindow
  rw [window_limited, model_enabled, grants]

def Site.modelShare (userId modelId : ℕ) (period : Period) : ℚ :=
  let policy := site.modelRules modelId
  (policy.tokens period).getD 0 *
    (if policy.autoTiers then ((site.modelTier userId modelId).map Tier.multiplier).getD 1 else 1)

theorem model_base {modelId : ℕ} (enabled : (site.modelBase userId modelId).enabled period) :
  whole ((((site.modelOverride userId modelId).tokens period).map fun value : ℕ => (value : ℚ)).getD
      (site.modelShare userId modelId period)) =
    (site.modelBase userId modelId).tokens period := by
  have tokens : (site.modelBase userId modelId).tokens period =
      (modelAmount (site.modelRules modelId) (site.modelOverride userId modelId) (site.modelTier userId modelId) period).getD 0 := by
    cases period <;> rfl
  have amounted : (modelAmount (site.modelRules modelId) (site.modelOverride userId modelId)
      (site.modelTier userId modelId) period).isSome := by
    cases period <;> exact (Bool.and_eq_true_iff.mp enabled).2
  rw [tokens]
  unfold modelAmount at amounted ⊢
  cases own : (site.modelOverride userId modelId).tokens period with
  | some value => simp [whole_natCast]
  | none =>
    by_cases on : (site.modelRules modelId).enabled
    · rw [own] at amounted
      simp only [if_pos on, isSome_map] at amounted
      rcases isSome_iff_exists.mp amounted with ⟨_, allowed⟩
      simp only [if_pos on, Site.modelShare, allowed, map_some, map_none, getD_some, getD_none]
      unfold Site.modelTier
      by_cases scales : (site.modelRules modelId).autoTiers
      · simp only [scales, on, Bool.and_self, if_true]
        cases resolveTier (site.preferences userId).tierId site.tiers with
        | none => simp [whole_natCast]
        | some tier => rfl
      · simp only [Bool.of_not_eq_true scales, Bool.false_and, Bool.false_eq_true, if_false, mul_one, whole_natCast]
    · rw [own] at amounted
      simp only [if_neg on] at amounted
      cases amounted

theorem modelWindow_base {modelId : ℕ} (limited : (site.modelWindow now userId modelId period).limited) :
  (site.modelWindow now userId modelId period).base = (site.modelBase userId modelId).tokens period := by
  have enabled := (Bool.and_eq_true_iff.mp ((modelWindow_limited site now userId modelId period).symm.trans limited)).1
  exact (window_base limited).1.trans (model_base site enabled)

end Agreement

/-- Without unlimited grants a limit is in force exactly when its base is enabled. -/
theorem base_agrees (site : Site) (now : ℚ) (user : Credits.User) (mem : user.admin = false) (period : Period) :
  (∀ pool,
    ((site.withoutUnlimited.effective now user pool).period period).limited = (site.baseLimits user.id pool).enabled period /\
      (((site.effective now user pool).period period).limited ->
        ((site.effective now user pool).period period).base = (site.baseLimits user.id pool).tokens period)) /\
    ∀ model : Credits.AiModel,
      ((site.withoutUnlimited.modelLimits now user model).period period).limited =
          (site.modelBase user.id model.id).enabled period /\
        (((site.modelLimits now user model).period period).limited ->
          ((site.modelLimits now user model).period period).base = (site.modelBase user.id model.id).tokens period) := by
  constructor
  · intro pool
    rw [effective_period _ now pool mem, effective_period _ now pool mem]
    refine ⟨?_, poolWindow_base site now⟩
    have none := unlimitedGrants_filter period.scope (·.forPool pool)
      (withoutUnlimited_activeGrants site user.id ⌊now⌋)
    rw [poolWindow_limited, Site.poolGrants, none, isEmpty_nil, Bool.and_true]
    rfl
  · intro model
    rw [modelLimits_period _ now model mem, modelLimits_period _ now model mem]
    refine ⟨?_, modelWindow_base site now⟩
    have none := unlimitedGrants_filter period.scope (·.forModel model.id)
      (withoutUnlimited_activeGrants site user.id ⌊now⌋)
    rw [modelWindow_limited, Site.modelGrants, none, isEmpty_nil, Bool.and_true]
    rfl

/-- On a fresh site the 5-hour tokens of the API are limited, and their base is the default. -/
theorem base_agrees_fresh : ((freshSite.withoutUnlimited.effective 0 ⟨1, false⟩ .api).period .window).limited =
      (freshSite.baseLimits 1 .api).enabled .window /\
    (freshSite.baseLimits 1 .api).enabled .window /\
    ((freshSite.effective 0 ⟨1, false⟩ .api).period .window).base = (freshSite.baseLimits 1 .api).tokens .window :=
  ⟨((base_agrees freshSite 0 ⟨1, false⟩ rfl .window).1 .api).1, rfl,
    ((base_agrees freshSite 0 ⟨1, false⟩ rfl .window).1 .api).2 rfl⟩

end BananaChat.Allowances
