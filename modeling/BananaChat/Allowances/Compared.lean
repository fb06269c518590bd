import BananaChat.Allowances.Overrides

namespace BananaChat.Allowances

open Foundation Limits List Bool

/-!
# Stricter and looser limits

A limit is below another one when the other allows at least as much: it does not limit at all, or it
limits to at least the same amounts.
-/

structure RuleBelow (strict loose : RateRule) : Prop where
  per : strict.per = loose.per
  requests : strict.requests <= loose.requests
  burst : strict.burst <= loose.burst

def RateBelow (strict loose : Limits.RateLimit) : Prop :=
  loose.limited -> strict.limited /\ List.Forall₂ RuleBelow strict.rules loose.rules

theorem RuleBelow.refl (rule : RateRule) : RuleBelow rule rule := ⟨rfl, le_refl _, le_refl _⟩

theorem RateBelow.refl (rate : Limits.RateLimit) : RateBelow rate rate :=
  fun limited => ⟨limited, forall₂_same.mpr fun rule _ => RuleBelow.refl rule⟩

structure BaseBelow (strict loose : RuleBase) : Prop where
  per : strict.per = loose.per
  requests : strict.requests <= loose.requests
  burst : strict.burst <= loose.burst

theorem BaseBelow.refl (rule : RuleBase) : BaseBelow rule rule := ⟨rfl, le_refl _, le_refl _⟩

theorem BaseBelow.trans {first second third : RuleBase} (low : BaseBelow first second) (high : BaseBelow second third) :
  BaseBelow first third :=
  ⟨low.per.trans high.per, low.requests.trans high.requests, low.burst.trans high.burst⟩

theorem forall₂_map {Item Other : Type} {relates : Other -> Other -> Prop} (first second : Item -> Other) {items : List Item}
  (related : ∀ item ∈ items, relates (first item) (second item)) :
  List.Forall₂ relates (items.map first) (items.map second) := by
  rw [forall₂_map_left_iff, forall₂_map_right_iff]
  exact forall₂_same.mpr related

section Settled

variable {grants : List GrantRow}

abbrev growth (grants : List GrantRow) : List Grant := rateMultipliers (grants.map GrantRow.toGrant)

theorem growth_nonneg (grants : List GrantRow) : ∀ grant ∈ growth grants, 0 <= grant.amount := by
  intro _ mem
  exact le_trans (by norm_num) (rateMultipliers_amount mem)

theorem settled_below {strict loose : RuleBase} (below : BaseBelow strict loose) {dynamic dynamic' capacity : ℚ}
  (dynamicNonneg : 0 <= dynamic) (capacityNonneg : 0 <= capacity) (dynamics : dynamic <= dynamic') :
  RuleBelow (settled dynamic capacity (growth grants) strict) (settled dynamic' capacity (growth grants) loose) := by
  have requests : strict.rule.requests <= loose.rule.requests := Nat.cast_le.mpr below.requests
  have start : 0 <= strict.rule.requests := Nat.cast_nonneg _
  have once : 0 <= (scaledRule dynamic false strict.rule).requests := scaledRule_requests_nonneg start dynamicNonneg
  have fewer : (scaledRule capacity false (scaledRule dynamic false strict.rule)).requests <=
      (scaledRule capacity false (scaledRule dynamic' false loose.rule)).requests :=
    scaledRule_requests_le (scaledRule_requests_le requests dynamics start dynamicNonneg) (le_refl capacity) once capacityNonneg
  have shorter : (scaledRule capacity false (scaledRule dynamic false strict.rule)).burst <=
      (scaledRule capacity false (scaledRule dynamic' false loose.rule)).burst :=
    scaledRule_burst_le (scaledRule_burst_le below.burst dynamics dynamicNonneg) (le_refl capacity) capacityNonneg
  have both := grown_le (growth_nonneg grants) (scaledRule_requests_nonneg once capacityNonneg) fewer shorter
  exact ⟨by rw [settled_per, settled_per, below.per], both.1, both.2⟩

end Settled

theorem rate_limited_iff (enabled : Bool) (baseRules : List RuleBase) (customRules : Option (List RuleBase))
  (dynamic : Option ℚ) (dynamicOn : Bool) (grants : List GrantRow) (capacity : ℚ) :
  (rate enabled baseRules customRules dynamic dynamicOn grants capacity).limited ↔
    ((enabled \/ customRules.isSome) /\ customRules.getD baseRules ≠ []) /\
      rateUnlimited (grants.map GrantRow.toGrant) = [] := by
  have chosen : ((enabled || customRules.isSome) && !(customRules.getD baseRules).isEmpty) ↔
      (enabled \/ customRules.isSome) /\ customRules.getD baseRules ≠ [] := by
    simp
  unfold rate Limits.rate
  by_cases off : ((enabled || customRules.isSome) && !(customRules.getD baseRules).isEmpty) = false
  · rw [if_pos off, <- chosen, off]
    exact ⟨fun clash => absurd clash false_ne_true, fun both => absurd both.1 false_ne_true⟩
  · rw [if_neg off, <- chosen, of_not_eq_false off]
    by_cases free : rateUnlimited (grants.map GrantRow.toGrant) = []
    · rw [if_neg (not_not_intro free)]
      exact ⟨fun _ => ⟨rfl, free⟩, fun _ => rfl⟩
    · rw [if_pos free]
      exact ⟨fun clash => absurd clash false_ne_true, fun both => absurd both.2 free⟩

variable {dynamic : Option ℚ} {dynamicOn : Bool}

theorem rate_rules_settled {enabled : Bool} {baseRules : List RuleBase} {customRules : Option (List RuleBase)}
  {grants : List GrantRow} {capacity : ℚ} (ruleset : Ruleset (customRules.getD baseRules))
  (limited : (rate enabled baseRules customRules dynamic dynamicOn grants capacity).limited) :
  (rate enabled baseRules customRules dynamic dynamicOn grants capacity).rules =
    (customRules.getD baseRules).map (settled (dynamicReduction dynamic dynamicOn customRules.isSome)
      (capacityReduction capacity) (growth grants)) :=
  rate_rules (fun base mem => ⟨(ruleset.bounded base mem).1.1, (ruleset.bounded base mem).2.1⟩) limited

def WindowBelow (strict loose : Window) : Prop := loose.limited -> strict.limited /\ strict.tokens <= loose.tokens

theorem WindowBelow.refl (window : Window) : WindowBelow window window := fun limited => ⟨limited, le_refl _⟩

theorem dynamicReduction_nonneg (least : ∀ factor, dynamic = some factor -> dynamicMin <= factor)
  (dynamicOn custom : Bool) : dynamicMin <= dynamicReduction dynamic dynamicOn custom := by
  unfold dynamicReduction
  cases dynamic with
  | none => norm_num [dynamicMin]
  | some factor =>
    dsimp only
    split
    · exact least factor rfl
    · norm_num [dynamicMin]

theorem dynamicReduction_le_one (dynamic : Option ℚ) (dynamicOn custom : Bool) :
  dynamicReduction dynamic dynamicOn custom <= 1 := by
  unfold dynamicReduction
  cases dynamic with
  | none => exact le_refl 1
  | some factor =>
    dsimp only
    split
    · rename_i reduces
      exact reduces.2.2.le
    · exact le_refl 1

theorem dynamicReduction_reduces {custom : Bool} (reduces : dynamicReduction dynamic dynamicOn custom < 1) :
  ∃ factor, dynamic = some factor /\ factor < 1 /\ dynamicReduction dynamic dynamicOn custom = factor := by
  unfold dynamicReduction at reduces ⊢
  cases dynamic with
  | none => exact absurd reduces (lt_irrefl 1)
  | some factor =>
    dsimp only at reduces ⊢
    split at reduces
    · rename_i applies
      exact ⟨factor, rfl, applies.2.2, if_pos applies⟩
    · exact absurd reduces (lt_irrefl 1)

theorem dynamicReduction_custom (dynamic : Option ℚ) (dynamicOn : Bool) : dynamicReduction dynamic dynamicOn true = 1 := by
  cases dynamic with
  | none => rfl
  | some factor => exact if_neg (fun reduces => absurd reduces.2.1 (by decide))

theorem quantise_twentieths (factor : ℚ) : ∃ steps : ℤ, quantise factor = steps / 20 := by
  refine ⟨roundEven (max dynamicMin (min dynamicMax factor) / dynamicStep), ?_⟩
  unfold quantise
  rw [roundDecimals_exact 2 (roundEven (max dynamicMin (min dynamicMax factor) / dynamicStep) * 5)]
  · unfold dynamicStep
    ring
  · push_cast
    unfold dynamicStep
    ring

theorem quantise_reduces {factor : ℚ} (reduces : quantise factor < 1) : quantise factor <= 19 / 20 := by
  rcases quantise_twentieths factor with ⟨steps, same⟩
  rw [same] at reduces ⊢
  have below : (steps : ℚ) < 20 := by linarith [(div_lt_one (by norm_num : (0 : ℚ) < 20)).mp reduces]
  have whole : steps <= 19 := by
    have strict : steps < 20 := by exact_mod_cast below
    omega
  have cast : (steps : ℚ) <= 19 := by exact_mod_cast whole
  linarith

theorem baseRules_ruleset (site : Site) (userId : ℕ) (pool : Pool) : Ruleset (site.baseLimits userId pool).rateRules := by
  have rules : (site.baseLimits userId pool).rateRules =
      (site.override userId pool).rules.getD (site.policies pool).rate.rules.val := rfl
  rw [rules, Override.rules]
  cases (site.override userId pool).rateRules with
  | none => exact checkedRules_ruleset _
  | some custom => exact custom.ruleset

theorem overrideRules_nonempty (override : Override) : ∀ rules, override.rules = some rules -> rules ≠ [] := by
  intro _ own
  rcases Option.map_eq_some_iff.mp own with ⟨custom, _, rfl⟩
  exact custom.nonempty

theorem poolDynamic_quantised (site : Site) (userId : ℕ) (pool : Pool) : ∀ factor,
  site.poolDynamic userId pool = some factor -> ∃ load, factor = quantise load := by
  intro _ applied
  unfold Site.poolDynamic at applied
  split at applied
  · cases applied
    exact ⟨site.load userId, rfl⟩
  · cases applied

end BananaChat.Allowances
