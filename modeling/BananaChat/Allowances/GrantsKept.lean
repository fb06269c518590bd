import BananaChat.Foundation.Inserted
import BananaChat.Allowances.Raised

namespace BananaChat.Allowances

open Foundation Limits List Nat WindowTerms

/-!
# A grant never costs

One more grant is inserted somewhere among the grants of the site.
-/

variable {rule : RateRule} {grant : GrantRow}

theorem grown_settled {multipliers : List Grant} (settledRule : rule.Settled) : (grown multipliers rule).Settled := by
  induction multipliers generalizing rule with
  | nil => exact settledRule
  | cons grant rest ih => exact ih (scaledRule_settled _ settledRule)

theorem grown_nonneg {multipliers : List Grant} (amounts : ∀ grant ∈ multipliers, 0 <= grant.amount)
  (nonneg : 0 <= rule.requests) : 0 <= (grown multipliers rule).requests := by
  induction multipliers generalizing rule with
  | nil => exact nonneg
  | cons grant rest ih =>
    have amount := amounts grant mem_cons_self
    exact ih (fun other mem => amounts other (.tail _ mem))
      (scaledRule_requests_nonneg nonneg amount)

theorem scaledRule_grows {factor : ℚ} (grows : 1 <= factor) (settledRule : rule.Settled) (nonneg : 0 <= rule.requests) :
  rule.requests <= (scaledRule factor true rule).requests /\ rule.burst <= (scaledRule factor true rule).burst := by
  constructor
  · calc
      rule.requests = roundDecimals 4 rule.requests := settledRule.1.symm
      _ <= roundDecimals 4 (rule.requests * factor) := roundDecimals_mono 4 (le_mul_of_one_le_right nonneg grows)
  · exact le_max_left _ _

theorem grown_inserted {grant : Grant} {fewer more : List Grant} (inserted : Inserted grant fewer more)
  (amounts : ∀ other ∈ more, 1 <= other.amount) (settledRule : rule.Settled) (nonneg : 0 <= rule.requests) :
  RuleBelow (grown fewer rule) (grown more rule) := by
  rcases inserted with rfl | ⟨first, rest, rfl, rfl⟩
  · exact RuleBelow.refl _
  · have positive : ∀ other ∈ first ++ grant :: rest, 0 <= other.amount :=
      fun other mem => zero_le_one.trans (amounts other mem)
    have amountsFirst : ∀ other ∈ first, 0 <= other.amount :=
      fun other mem => positive other (mem_append_left _ mem)
    have amountsRest : ∀ other ∈ rest, 0 <= other.amount :=
      fun other mem => positive other (mem_append_right _ (mem_cons_of_mem _ mem))
    have amount : 1 <= grant.amount := amounts grant (mem_append_right _ mem_cons_self)
    have reached : 0 <= (grown first rule).requests := grown_nonneg amountsFirst nonneg
    have settledFirst : (grown first rule).Settled := grown_settled settledRule
    have grows := scaledRule_grows amount settledFirst reached
    have both := grown_le amountsRest reached grows.1 grows.2
    have split : grown (first ++ rest) rule = grown rest (grown first rule) := foldl_append
    have splitMore : grown (first ++ grant :: rest) rule =
        grown rest (scaledRule grant.amount true (grown first rule)) := by
      simp [grown]
    rw [split, splitMore]
    exact ⟨by simp only [grown_per, scaledRule], both.1, both.2⟩

theorem settled_inserted {grant : Grant} {fewer more : List Grant} (inserted : Inserted grant fewer more)
  (amounts : ∀ other ∈ more, 1 <= other.amount) {base : RuleBase} (positive : base.Positive)
  {dynamic capacity : ℚ} (dynamicNonneg : 0 <= dynamic) (capacityNonneg : 0 <= capacity) :
  RuleBelow (settled dynamic capacity fewer base) (settled dynamic capacity more base) := by
  have start : 0 <= base.rule.requests := cast_nonneg _
  have once : 0 <= (scaledRule dynamic false base.rule).requests := scaledRule_requests_nonneg start dynamicNonneg
  refine grown_inserted inserted amounts ?_ (scaledRule_requests_nonneg once capacityNonneg)
  exact scaledRule_settled _ (scaledRule_settled _ (RuleBase.rule_settled positive))

theorem capacityReduction_nonneg (capacity : ℚ) : 0 <= capacityReduction capacity := by
  unfold capacityReduction
  split
  · exact le_trans (by norm_num) (le_max_right _ _)
  · exact zero_le_one

theorem rate_inserted {fewer more : List GrantRow} (inserted : Inserted grant fewer more) {enabled : Bool}
  {baseRules : List RuleBase} {custom : Option (List RuleBase)} {dynamic : Option ℚ} {dynamicOn : Bool} {capacity : ℚ}
  (ruleset : Ruleset (custom.getD baseRules)) (least : ∀ factor, dynamic = some factor -> dynamicMin <= factor) :
  RateBelow (rate enabled baseRules custom dynamic dynamicOn fewer capacity).toRateLimit
    (rate enabled baseRules custom dynamic dynamicOn more capacity).toRateLimit := by
  intro limited
  have plain := inserted.map GrantRow.toGrant
  rcases (rate_limited_iff _ _ _ _ _ _ _).mp limited with ⟨on, free⟩
  have unlimited : Inserted grant.toGrant (rateUnlimited (fewer.map GrantRow.toGrant))
      (rateUnlimited (more.map GrantRow.toGrant)) := plain.filter _
  rw [free] at unlimited
  have before := (rate_limited_iff enabled baseRules custom dynamic dynamicOn fewer capacity).mpr ⟨on, unlimited.eq_nil⟩
  refine ⟨before, ?_⟩
  rw [rate_rules_settled ruleset before, rate_rules_settled ruleset limited]
  refine forall₂_map _ _ fun rule mem => ?_
  have multipliers : Inserted grant.toGrant (growth fewer) (growth more) := plain.filter _
  have amounts : ∀ other ∈ growth more, 1 <= other.amount :=
    fun other inside => le_trans (by norm_num) (rateMultipliers_amount inside)
  have reduction := dynamicReduction_nonneg least dynamicOn custom.isSome
  have dynamicNonneg : 0 <= dynamicReduction dynamic dynamicOn custom.isSome :=
    le_trans (by norm_num [dynamicMin]) reduction
  exact settled_inserted multipliers amounts ⟨(ruleset.bounded rule mem).1.1, (ruleset.bounded rule mem).2.1⟩
    dynamicNonneg (capacityReduction_nonneg capacity)

section Windows

variable {grant : GrantRow} {fewer more : List GrantRow} (terms : WindowTerms)

section

variable (inserted : Inserted grant fewer more)
include inserted

theorem grantGrowth_inserted (period : Period) :
  ({ terms with grants := fewer } : WindowTerms).grantGrowth period <=
    ({ terms with grants := more } : WindowTerms).grantGrowth period := by
  have amounts : ∀ list : List GrantRow, ∀ amount,
      amount ∈ (multiplierGrants period.scope list).map (·.amount) -> 1 <= amount := by
    intro _ amount mem
    rcases mem_map.mp mem with ⟨other, inside, rfl⟩
    have kind := of_decide_eq_true (mem_filter.mp inside).2
    exact le_trans (by norm_num) (other.multiplies kind).1
  have multipliers : Inserted grant (multiplierGrants period.scope fewer) (multiplierGrants period.scope more) :=
    (inserted.filter _).filter _
  have positive : ∀ amount ∈ (multiplierGrants period.scope fewer).map (·.amount), 0 <= amount :=
    fun amount mem => zero_le_one.trans (amounts fewer amount mem)
  unfold grantGrowth
  by_cases multiplies : grant.kind = .multiplier
  · exact (multipliers.map fun grant => grant.amount).prod_le positive (le_trans (by norm_num) (grant.multiplies multiplies).1)
  · have same : multiplierGrants period.scope more = multiplierGrants period.scope fewer :=
      (inserted.filter _).filter_dropped (decide_eq_false multiplies)
    rw [same]

theorem grantAddition_inserted (period : Period) :
  ({ terms with grants := fewer } : WindowTerms).grantAddition period <=
    ({ terms with grants := more } : WindowTerms).grantAddition period := by
  have extras : Inserted grant (extraGrants period.scope fewer) (extraGrants period.scope more) :=
    (inserted.filter _).filter _
  unfold grantAddition
  by_cases adds : grant.kind = .extra
  · exact (extras.map fun grant => grant.amount).sum_le (zero_le_one.trans (grant.adds adds))
  · have same : extraGrants period.scope more = extraGrants period.scope fewer := by
      refine (inserted.filter _).filter_dropped ?_
      rw [decide_eq_false adds, Bool.false_and]
    rw [same]

theorem amount_inserted (sound : terms.Sound) (fixed : 0 <= terms.bonusAddition)
  (period : Period) (custom : Bool) {tokens : ℚ} (nonneg : 0 <= tokens) :
  ({ terms with grants := fewer } : WindowTerms).amount period custom tokens <=
    ({ terms with grants := more } : WindowTerms).amount period custom tokens := by
  have grows := grantGrowth_inserted terms inserted period
  have adds := grantAddition_inserted terms inserted period
  have own : 0 <= terms.dynamicGrowth custom * terms.capacityGrowth * terms.bonusGrowth :=
    mul_nonneg (mul_nonneg (sound.dynamicGrowth_nonneg custom) sound.capacityGrowth_nonneg) sound.bonusGrowth_nonneg
  rw [amount_eq, amount_eq]
  refine whole_mono (afterRenounced_mono terms ?_)
  have multiplied : ({ terms with grants := fewer } : WindowTerms).growth period custom * tokens <=
      ({ terms with grants := more } : WindowTerms).growth period custom * tokens :=
    mul_le_mul_of_nonneg_right (mul_le_mul_of_nonneg_left grows own) nonneg
  have bonus : terms.bonusAddition * ({ terms with grants := fewer } : WindowTerms).grantGrowth period <=
      terms.bonusAddition * ({ terms with grants := more } : WindowTerms).grantGrowth period :=
    mul_le_mul_of_nonneg_left grows fixed
  exact add_le_add multiplied (add_le_add bonus adds)

theorem window_inserted (sound : terms.Sound) (fixed : 0 <= terms.bonusAddition)
  (period : Period) (enabled : Bool) (policyTokens : ℕ) (autoTiers : Bool) {custom : Option ℚ}
  (nonneg : ∀ value, custom = some value -> 0 <= value) :
  WindowBelow (window period enabled policyTokens autoTiers custom { terms with grants := fewer })
    (window period enabled policyTokens autoTiers custom { terms with grants := more }) := by
  intro limited
  rcases Bool.and_eq_true_iff.mp ((window_limited _ _ _ _ _ _).symm.trans limited) with ⟨on, free⟩
  have unlimited : Inserted grant (unlimitedGrants period.scope fewer) (unlimitedGrants period.scope more) :=
    (inserted.filter _).filter _
  rw [isEmpty_iff.mp free] at unlimited
  have before : (window period enabled policyTokens autoTiers custom { terms with grants := fewer }).limited := by
    rw [window_limited]
    exact Bool.and_eq_true_iff.mpr ⟨on, isEmpty_iff.mpr unlimited.eq_nil⟩
  refine ⟨before, ?_⟩
  rw [(window_base before).2, (window_base limited).2]
  refine amount_inserted terms inserted sound fixed period _ ?_
  cases own : custom with
  | none => exact mul_nonneg (cast_nonneg _) (tierFactor_nonneg _ _)
  | some value => exact nonneg value own

end

end Windows

def Site.withGrants (site : Site) (grants : List GrantRow) : Site := { site with grants := grants }

section Sites

variable (site : Site) (now : ℚ) {grant : GrantRow} {fewer more : List GrantRow}

theorem poolGrants_inserted (inserted : Inserted grant fewer more) (userId : ℕ) (pool : Pool) (stamp : ℤ) :
  Inserted grant ((site.withGrants fewer).poolGrants userId pool stamp)
    ((site.withGrants more).poolGrants userId pool stamp) :=
  (inserted.filter _).filter _

theorem modelGrants_inserted (inserted : Inserted grant fewer more) (userId modelId : ℕ) (stamp : ℤ) :
  Inserted grant ((site.withGrants fewer).modelGrants userId modelId stamp)
    ((site.withGrants more).modelGrants userId modelId stamp) :=
  (inserted.filter _).filter _

theorem bonusFor_addition_nonneg (userId : ℕ) (period : Period) : ∀ extra,
  site.bonusFor userId period = .fixed extra -> 0 <= extra := by
  have fixed : 0 <= site.music.fixed := by
    unfold Music.fixed Credits.tokensPerCredit
    cases site.music.fixedTokens with
    | none => positivity
    | some tokens => exact cast_nonneg tokens
  have weekly : 0 <= site.music.weeklyFixed := by
    unfold Music.weeklyFixed
    cases site.music.fixedWeeklyTokens with
    | none => exact mul_nonneg fixed (by norm_num)
    | some tokens => exact cast_nonneg tokens
  have own : ∀ extra, site.music.bonus userId = .fixed extra -> 0 <= extra := by
    intro extra given
    unfold Music.bonus at given
    split at given
    · cases given
    · split at given
      · cases given
      · split at given
        · cases given
          exact fixed
        · cases given
  intro extra given
  cases period with
  | window => exact own extra given
  | weekly =>
    unfold Site.bonusFor at given
    dsimp only at given
    split at given
    · cases given
      exact weekly
    · exact own extra given

theorem poolWindow_inserted (inserted : Inserted grant fewer more) (userId : ℕ) (pool : Pool) (period : Period) :
  WindowBelow ((site.withGrants fewer).poolWindow now userId pool period)
    ((site.withGrants more).poolWindow now userId pool period) := by
  have fixed : 0 <= (site.poolTerms now userId pool period).bonusAddition := by
    have given := bonusFor_addition_nonneg site userId period
    change 0 <= bonusAddition { site.poolTerms now userId pool period with bonus := site.bonusFor userId period }
    cases bonus : site.bonusFor userId period with
    | none | multiplier factor => exact le_refl 0
    | fixed tokens => exact given tokens bonus
  exact window_inserted (site.poolTerms now userId pool period) (poolGrants_inserted site inserted userId pool ⌊now⌋)
    (poolTerms_sound site now userId pool period) fixed period _ _ _ (fun value own => (customAmount_whole own).2)

theorem modelWindow_inserted (inserted : Inserted grant fewer more) (userId modelId : ℕ) (period : Period) :
  WindowBelow ((site.withGrants fewer).modelWindow now userId modelId period)
    ((site.withGrants more).modelWindow now userId modelId period) := by
  refine window_inserted (site.modelTerms now userId modelId period)
    (modelGrants_inserted site inserted userId modelId ⌊now⌋) (modelTerms_sound site now userId modelId period) (le_refl 0)
    period _ _ _ (fun value own => ?_)
  rcases Option.map_eq_some_iff.mp own with ⟨tokens, _, rfl⟩
  exact cast_nonneg tokens

theorem customRules_ruleset (custom : Option CustomRules) (checked : CheckedRules) :
  Ruleset ((custom.map CustomRules.rules).getD checked.val) := by
  cases custom with
  | none => exact checkedRules_ruleset _
  | some rules => exact rules.ruleset

theorem effectiveRate_inserted (inserted : Inserted grant fewer more) (user : Credits.User) (pool : Pool) :
  RateBelow ((site.withGrants fewer).effective now user pool).rate.toRateLimit
    ((site.withGrants more).effective now user pool).rate.toRateLimit := by
  by_cases counted : user.admin = false /\ (site.preferences user.id).rateExempt = false
  · rw [effective_rate (site.withGrants fewer) now pool counted.1 counted.2,
      effective_rate (site.withGrants more) now pool counted.1 counted.2]
    refine rate_inserted (poolGrants_inserted site inserted user.id pool ⌊now⌋) (customRules_ruleset _ _) ?_
    intro factor applied
    rcases poolDynamic_quantised site user.id pool factor applied with ⟨load, rfl⟩
    exact Limits.Site.quantise_least load
  · intro limited
    have free : ((site.withGrants more).effective now user pool).rate.limited = false := effective_rate_free counted
    rw [free] at limited
    cases limited

theorem modelRate_inserted (inserted : Inserted grant fewer more) (userId modelId : ℕ) :
  RateBelow ((site.withGrants fewer).modelRate now userId modelId).toRateLimit
    ((site.withGrants more).modelRate now userId modelId).toRateLimit := by
  by_cases counted : site.modelRateEnabled userId modelId
  · have same : ∀ grants : List GrantRow, (site.withGrants grants).modelRate now userId modelId =
        rate (site.modelRules modelId).enabled (site.modelRules modelId).rateRules.val (site.modelOverride userId modelId).rules
          (site.modelDynamic userId modelId) true ((site.withGrants grants).modelGrants userId modelId ⌊now⌋)
          (capacityFactor (site.report modelId)) := fun grants => if_pos counted
    rw [same, same]
    refine rate_inserted (modelGrants_inserted site inserted userId modelId ⌊now⌋) (customRules_ruleset _ _) ?_
    intro _ applied
    unfold Site.modelDynamic at applied
    dsimp only at applied
    split at applied
    · cases applied
      exact Limits.Site.quantise_least _
    · cases applied
  · have free : (site.withGrants more).modelRate now userId modelId = unlimitedRate .notLimited := if_neg counted
    intro limited
    rw [free] at limited
    cases limited

end Sites

theorem window_unlimited (unlimited : grant.kind = .unlimited) {terms : WindowTerms} (mem : grant ∈ terms.grants)
  {period : Period} (reaches : grant.scope = none \/ grant.scope = some period.scope) (enabled : Bool) (policyTokens : ℕ)
  (autoTiers : Bool) (custom : Option ℚ) :
  (window period enabled policyTokens autoTiers custom terms).limited = false := by
  have inScope : (decide (grant.scope = none) || decide (grant.scope = some period.scope)) := by
    rwa [Bool.or_eq_true, decide_eq_true_eq, decide_eq_true_eq]
  have inside : grant ∈ unlimitedGrants period.scope terms.grants :=
    mem_filter.mpr ⟨mem_filter.mpr ⟨mem, inScope⟩, decide_eq_true unlimited⟩
  rw [window_limited, isEmpty_eq_false_iff.mpr (ne_nil_of_mem inside), Bool.and_false]

theorem rate_unlimited (unlimited : grant.kind = .unlimited) {grants : List GrantRow} (mem : grant ∈ grants)
  (reaches : grant.reachesRate) (enabled : Bool) (baseRules : List RuleBase) (custom : Option (List RuleBase))
  (dynamic : Option ℚ) (dynamicOn : Bool) (capacity : ℚ) :
  (rate enabled baseRules custom dynamic dynamicOn grants capacity).limited = false := by
  refine Bool.eq_false_of_not_eq_true fun limited => ?_
  have free := ((rate_limited_iff _ _ _ _ _ _ _).mp limited).2
  refine absurd free (ne_nil_of_mem (a := grant.toGrant) (mem_filter.mpr ⟨mem_map.mpr ⟨grant, mem, rfl⟩, ?_⟩))
  rw [reaches, decide_eq_true unlimited]
  rfl

/-- One more grant, wherever it stands among the others, lowers no limit of a pool or a model,
and what an unlimited one reaches is not limited. -/
theorem grant_never_costs (site : Site) (now : ℚ) (grant : GrantRow) (before after : List GrantRow) (user : Credits.User) :
  let without := site.withGrants (before ++ after)
  let granted := site.withGrants (before ++ grant :: after)
  (∀ pool, RateBelow (without.effective now user pool).rate.toRateLimit (granted.effective now user pool).rate.toRateLimit /\
    ∀ period, WindowBelow ((without.effective now user pool).period period)
      ((granted.effective now user pool).period period)) /\
  (∀ model, RateBelow (without.modelLimits now user model).rate.toRateLimit
      (granted.modelLimits now user model).rate.toRateLimit /\
    ∀ period, WindowBelow ((without.modelLimits now user model).period period)
      ((granted.modelLimits now user model).period period)) /\
  (grant.kind = .unlimited -> grant ∈ granted.activeGrants user.id ⌊now⌋ ->
    (∀ pool, grant.forPool pool ->
      (grant.reachesRate -> (granted.effective now user pool).rate.limited = false) /\
      ∀ period : Period, grant.scope = none \/ grant.scope = some period.scope ->
        ((granted.effective now user pool).period period).limited = false) /\
    ∀ model : Credits.AiModel, grant.forModel model.id ->
      (grant.reachesRate -> (granted.modelLimits now user model).rate.limited = false) /\
      ∀ period : Period, grant.scope = none \/ grant.scope = some period.scope ->
        ((granted.modelLimits now user model).period period).limited = false) := by
  intro without granted
  have inserted : Inserted grant (before ++ after) (before ++ grant :: after) := Inserted.between grant before after
  by_cases admin : user.admin
  · have pools : ∀ (any : Site) (pool : Pool), any.effective now user pool = adminResult pool :=
      fun any pool => if_pos admin
    have models : ∀ (any : Site) (model : Credits.AiModel), (any.modelLimits now user model).rate = adminRate /\
        ∀ period, (any.modelLimits now user model).period period = adminWindow period := by
      intro any model
      unfold Site.modelLimits
      rw [admin]
      exact ⟨rfl, fun period => by cases period <;> rfl⟩
    have periods : ∀ (pool : Pool) (period : Period), (adminResult pool).period period = adminWindow period :=
      fun pool period => by cases period <;> rfl
    simp only [pools, (models _ _).1, (models _ _).2, periods]
    refine ⟨fun _ => ⟨RateBelow.refl _, fun _ => WindowBelow.refl _⟩, fun _ => ⟨RateBelow.refl _, fun _ => WindowBelow.refl _⟩, ?_⟩
    exact fun _ _ => ⟨fun _ _ => ⟨fun _ => rfl, fun _ _ => rfl⟩, fun _ _ => ⟨fun _ => rfl, fun _ _ => rfl⟩⟩
  · have mem : user.admin = false := Bool.eq_false_of_not_eq_true admin
    simp only [effective_period without now _ mem, effective_period granted now _ mem,
      modelLimits_period without now _ mem, modelLimits_period granted now _ mem, modelLimits_rate without now _ mem,
      modelLimits_rate granted now _ mem]
    refine ⟨fun pool => ⟨effectiveRate_inserted site now inserted user pool, fun period =>
      poolWindow_inserted site now inserted user.id pool period⟩, fun model => ⟨modelRate_inserted site now inserted user.id model.id,
      fun period => modelWindow_inserted site now inserted user.id model.id period⟩, fun unlimited active => ⟨?_, ?_⟩⟩
    · intro pool reached
      have inPool : grant ∈ granted.poolGrants user.id pool ⌊now⌋ := mem_filter.mpr ⟨active, reached⟩
      constructor
      · intro reaches
        by_cases counted : (site.preferences user.id).rateExempt = false
        · rw [effective_rate granted now pool mem counted]
          exact rate_unlimited unlimited inPool reaches _ _ _ _ _ _
        · exact effective_rate_free fun both => counted both.2
      · exact fun period reaches => window_unlimited unlimited inPool reaches _ _ _ _
    · intro model reached
      have inModel : grant ∈ granted.modelGrants user.id model.id ⌊now⌋ := mem_filter.mpr ⟨active, reached⟩
      constructor
      · intro reaches
        unfold Site.modelRate
        split
        · exact rate_unlimited unlimited inModel reaches _ _ _ _ _ _
        · rfl
      · exact fun period reaches => window_unlimited unlimited inModel reaches _ _ _ _

end BananaChat.Allowances
