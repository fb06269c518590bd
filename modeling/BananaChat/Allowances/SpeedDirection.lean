import BananaChat.Allowances.Speed

namespace BananaChat.Allowances

open Foundation Limits List Nat

/-!
# Which way a speed change moves the request rates

A rate that was adjusted is a custom one.
-/

structure TurnsOn (site : Site) (now : ℚ) (user : Credits.User) (pool : Pool) : Prop where
  mem : user.admin = false
  counted : (site.preferences user.id).rateExempt = false
  off : (site.policies pool).rate.enabled = false
  plain : (site.override user.id pool).rateRules = none
  ruled : (site.policies pool).rate.rules.val ≠ []
  limiting : rateUnlimited ((site.poolGrants user.id pool ⌊now⌋).map GrantRow.toGrant) = []

structure Lifts (site : Site) (now : ℚ) (user : Credits.User) (pool : Pool) : Prop where
  mem : user.admin = false
  counted : (site.preferences user.id).rateExempt = false
  on : (site.policies pool).rate.enabled
  plain : (site.override user.id pool).rateRules = none
  reacts : (site.policies pool).rate.dynamic
  follows : (site.preferences user.id).dynamicExempt = false
  reduced : site.dynamicFor user.id < 1
  single : ∃ rule ∈ (site.policies pool).rate.rules.val, rule.requests = 1
  limiting : rateUnlimited ((site.poolGrants user.id pool ⌊now⌋).map GrantRow.toGrant) = []

theorem grown_lead {multipliers : List Grant} (amounts : ∀ grant ∈ multipliers, 101 / 100 <= grant.amount)
  {behind ahead : RateRule} (lead : behind.requests + 1 / 20 <= ahead.requests) :
  (grown multipliers behind).requests + 1 / 20 <= (grown multipliers ahead).requests := by
  induction multipliers generalizing behind ahead with
  | nil => exact lead
  | cons grant rest ih =>
    refine ih (fun other mem => amounts other (.tail _ mem)) ?_
    have amount := amounts grant mem_cons_self
    have low := (roundDecimals_near 4 (ahead.requests * grant.amount)).1
    have high := (roundDecimals_near 4 (behind.requests * grant.amount)).2
    have wider : 1 / 20 * (101 / 100) <= (ahead.requests - behind.requests) * grant.amount :=
      mul_le_mul (by linarith) amount (by norm_num) (by linarith)
    change roundDecimals 4 (behind.requests * grant.amount) + 1 / 20 <= roundDecimals 4 (ahead.requests * grant.amount)
    rw [sub_mul] at wider
    norm_num at low high wider ⊢
    linarith

theorem growth_amounts (grants : List GrantRow) : ∀ grant ∈ growth grants, 101 / 100 <= grant.amount :=
  fun _ mem => rateMultipliers_amount mem

variable {rule : RuleBase} {factor : ℚ}

section

variable (bounded : Bounded rule)
include bounded

theorem bounded_positive : rule.Positive := ⟨bounded.1.1, bounded.2.1⟩

theorem settled_plain (grants : List GrantRow) :
  settled 1 1 (growth grants) rule = grown (growth grants) rule.rule := by
  have start := RuleBase.rule_settled (bounded_positive bounded)
  rw [settled, scaledRule_one start, scaledRule_one start]

theorem settled_reduced (dynamic : ℚ) (grants : List GrantRow) :
  settled dynamic 1 (growth grants) rule = grown (growth grants) (scaledRule dynamic false rule.rule) := by
  rw [settled, scaledRule_one (scaledRule_settled dynamic (RuleBase.rule_settled (bounded_positive bounded)))]

theorem slowed_overtakes (single : rule.requests = 1) (reduces : quantise factor < 1) (grants : List GrantRow) :
  ¬ RuleBelow (settled 1 1 (growth grants) (speedRule (1 / 2) rule))
    (settled (quantise factor) 1 (growth grants) rule) := by
  intro below
  have one : (speedRule (1 / 2) rule).rule.requests = 1 := by
    have requests : (speedRule (1 / 2) rule).requests = 1 := by
      have half : ⌊((1 : ℕ) : ℚ) * (1 / 2)⌋₊ = 0 := floor_eq_zero.mpr (by norm_num)
      unfold speedRule
      rw [single, half]
      rfl
    unfold RuleBase.rule
    rw [requests]
    rfl
  have fewer : (scaledRule (quantise factor) false rule.rule).requests <= 19 / 20 := by
    have product : rule.rule.requests * quantise factor <= 19 / 20 := by
      unfold RuleBase.rule
      rw [single, cast_one, one_mul]
      exact quantise_reduces reduces
    have kept := roundDecimals_mono 4 product
    rw [roundDecimals_exact 4 9500 (show (19 / 20 : ℚ) = (9500 : ℤ) / 10 ^ 4 by norm_num)] at kept
    exact kept
  have lead : (scaledRule (quantise factor) false rule.rule).requests + 1 / 20 <= (speedRule (1 / 2) rule).rule.requests := by
    rw [one]
    linarith
  have apart := grown_lead (growth_amounts grants) lead
  rw [<- settled_plain (speedRule_bounded _ rule), <- settled_reduced bounded] at apart
  linarith [below.requests]

theorem slowed_reduced (several : rule.requests ≠ 1) (least : dynamicMin <= factor) (grants : List GrantRow) :
  RuleBelow (settled 1 1 (growth grants) (speedRule (1 / 2) rule)) (settled factor 1 (growth grants) rule) := by
  have least' : 1 / 2 <= factor := least
  have halved : ∀ amount : ℕ, ((⌊(amount : ℚ) * (1 / 2)⌋₊ : ℕ) : ℚ) <= amount * factor := by
    intro amount
    have nonneg : (0 : ℚ) <= amount := cast_nonneg amount
    have floor := floor_le (mul_nonneg nonneg (by norm_num : (0 : ℚ) <= 1 / 2))
    have more := mul_le_mul_of_nonneg_left least' nonneg
    linarith
  have requests : (speedRule (1 / 2) rule).rule.requests <= (scaledRule factor false rule.rule).requests := by
    have two : 2 <= rule.requests := by
      have one := bounded.1.1
      omega
    have half : max 1 ⌊(rule.requests : ℚ) * (1 / 2)⌋₊ = ⌊(rule.requests : ℚ) * (1 / 2)⌋₊ := by
      refine max_eq_right (le_floor ?_)
      have cast : (2 : ℚ) <= rule.requests := by exact_mod_cast two
      push_cast
      linarith
    have whole : (speedRule (1 / 2) rule).rule.requests <= (⌊(rule.requests : ℚ) * (1 / 2)⌋₊ : ℕ) := by
      refine cast_le.mpr ?_
      rw [<- half]
      exact min_le_right _ _
    have kept := roundDecimals_mono 4 (halved rule.requests)
    rw [roundDecimals_natCast] at kept
    exact whole.trans kept
  have burst : (speedRule (1 / 2) rule).rule.burst <= (scaledRule factor false rule.rule).burst := by
    refine (min_le_right _ _).trans (max_le_max (le_refl 1) (floor_mono ?_))
    have nonneg : (0 : ℚ) <= rule.burst := cast_nonneg _
    exact mul_le_mul_of_nonneg_left least' nonneg
  rw [settled_plain (speedRule_bounded _ rule), settled_reduced bounded]
  have start : 0 <= (speedRule (1 / 2) rule).rule.requests := cast_nonneg _
  have both := grown_le (growth_nonneg grants) start requests burst
  exact ⟨by rw [grown_per, grown_per]; rfl, both.1, both.2⟩

end

theorem base_of_starting (policyRules baseRules : List RuleBase) (previous : Speed) : ∃ change : RuleBase -> RuleBase,
    baseRules = (startingRules policyRules baseRules previous).map change /\
      (change = id \/ change = speedRule (1 / 2) \/ change = speedRule 2) := by
  unfold startingRules
  cases factor : speedFactor previous with
  | none => exact ⟨id, (map_id _).symm, .inl rfl⟩
  | some old =>
    dsimp only
    split
    · rename_i same
      refine ⟨speedRule old, same.symm, .inr ?_⟩
      cases previous with
      | slow =>
        cases factor
        exact .inl rfl
      | normal => cases factor
      | fast =>
        cases factor
        exact .inr rfl
    · exact ⟨id, (map_id _).symm, .inl rfl⟩

variable {change : RuleBase -> RuleBase}

section

variable (one : change = id \/ change = speedRule (1 / 2) \/ change = speedRule 2) (bounded : Bounded rule)
include one bounded

theorem change_below_fast : BaseBelow (change rule) (speedRule 2 rule) := by
  rcases one with rfl | rfl | rfl
  · exact below_sped bounded
  · exact (slowed_below bounded).trans (below_sped bounded)
  · exact BaseBelow.refl _

theorem slow_below_change : BaseBelow (speedRule (1 / 2) rule) (change rule) := by
  rcases one with rfl | rfl | rfl
  · exact slowed_below bounded
  · exact BaseBelow.refl _
  · exact (slowed_below bounded).trans (below_sped bounded)

end

theorem rules_over {policyRules baseRules : List RuleBase} (policy : Ruleset policyRules) (base : Ruleset baseRules)
  (previous speed : Speed) (adjusts : speedFactor speed = some factor) :
  ∃ items : List RuleBase, ∃ change : RuleBase -> RuleBase,
    Ruleset items /\ baseRules = items.map change /\ nextRules policyRules baseRules previous speed = items.map (speedRule factor) /\
      (change = id \/ change = speedRule (1 / 2) \/ change = speedRule 2) := by
  rcases base_of_starting policyRules baseRules previous with ⟨change, same, oneOf⟩
  refine ⟨_, change, startingRules_ruleset policy base previous, same, ?_, oneOf⟩
  unfold nextRules
  rw [adjusts]
  rfl

theorem nextRules_policy (policyRules : List RuleBase) (previous speed : Speed)
  (adjusts : speedFactor speed = some factor) :
  nextRules policyRules policyRules previous speed = policyRules.map (speedRule factor) := by
  have starting : startingRules policyRules policyRules previous = policyRules := by
    unfold startingRules
    cases speedFactor previous with
    | none => rfl
    | some old => exact ite_self _
  unfold nextRules
  rw [adjusts, starting]
  rfl

variable {rules : List RuleBase}

theorem storedRules_getD (nonempty : rules ≠ []) (others : List RuleBase) :
  (storedRules rules).getD others = rules := by
  rw [storedRules, if_neg nonempty, Option.getD_some]

theorem storedRules_isSome (nonempty : rules ≠ []) : (storedRules rules).isSome := by
  rw [storedRules, if_neg nonempty]
  rfl

section Rates

variable {enabled : Bool} {policyRules : List RuleBase} {customRules : Option (List RuleBase)} {dynamic : Option ℚ}
  {dynamicOn : Bool} {grants : List GrantRow} {previous : Speed}

abbrev adjustedRate (enabled : Bool) (policyRules : List RuleBase) (customRules : Option (List RuleBase)) (dynamic : Option ℚ)
  (dynamicOn : Bool) (grants : List GrantRow) (previous speed : Speed) : RateLimit :=
  rate enabled policyRules (storedRules (nextRules policyRules (customRules.getD policyRules) previous speed)) dynamic
    dynamicOn grants 1

variable {speed : Speed}

theorem adjustedRate_limited (nonempty : customRules.getD policyRules ≠ []) (policy : Ruleset policyRules)
  (base : Ruleset (customRules.getD policyRules)) (adjusts : speedFactor speed = some factor)
  (free : rateUnlimited (grants.map GrantRow.toGrant) = []) :
  (adjustedRate enabled policyRules customRules dynamic dynamicOn grants previous speed).limited := by
  rcases rules_over policy base previous _ adjusts with ⟨_, _, _, same, next, _⟩
  have nextNonempty : nextRules policyRules (customRules.getD policyRules) previous speed ≠ [] := by
    rw [next, Ne, map_eq_nil_iff]
    intro empty
    rw [same, empty] at nonempty
    exact nonempty rfl
  refine (rate_limited_iff _ _ _ _ _ _ _).mpr ⟨⟨.inr (storedRules_isSome nextNonempty), ?_⟩, free⟩
  rw [storedRules_getD nextNonempty]
  exact nextNonempty

theorem adjustedRate_nonempty (own : ∀ rules, customRules = some rules -> rules ≠ []) (policy : Ruleset policyRules)
  (base : Ruleset (customRules.getD policyRules)) (adjusts : speedFactor speed = some factor)
  (limited : (adjustedRate enabled policyRules customRules dynamic dynamicOn grants previous speed).limited) :
  customRules.getD policyRules ≠ [] := by
  have chosen := ((rate_limited_iff _ _ _ _ _ _ _).mp limited).1.2
  rcases rules_over policy base previous _ adjusts with ⟨items, _, _, same, next, _⟩
  intro empty
  have noItems : items = [] := map_eq_nil_iff.mp (same.symm.trans empty)
  rw [next, noItems, map_nil, storedRules, if_pos rfl, Option.getD_none] at chosen
  cases custom : customRules with
  | none =>
    rw [custom, Option.getD_none] at empty
    exact chosen empty
  | some rules =>
    rw [custom, Option.getD_some] at empty
    exact own rules custom empty

theorem adjustedRate_rules {items : List RuleBase} (ruleset : Ruleset items)
  (next : nextRules policyRules (customRules.getD policyRules) previous speed = items.map (speedRule factor))
  (nonempty : items ≠ [])
  (limited : (adjustedRate enabled policyRules customRules dynamic dynamicOn grants previous speed).limited) :
  (adjustedRate enabled policyRules customRules dynamic dynamicOn grants previous speed).rules =
    items.map (settled 1 1 (growth grants) ∘ speedRule factor) := by
  have some : items.map (speedRule factor) ≠ [] := fun empty => nonempty (map_eq_nil_iff.mp empty)
  have chosen : (storedRules (nextRules policyRules (customRules.getD policyRules) previous speed)).getD policyRules =
      items.map (speedRule factor) := by
    rw [next, storedRules_getD some]
  have custom : (storedRules (nextRules policyRules (customRules.getD policyRules) previous speed)).isSome := by
    rw [next]
    exact storedRules_isSome some
  have scaledRuleset : Ruleset (items.map (speedRule factor)) := speedRules_ruleset factor ruleset
  rw [rate_rules_settled (chosen ▸ scaledRuleset) limited, chosen, custom, dynamicReduction_custom, map_map]
  rfl

section

variable (own : ∀ rules, customRules = some rules -> rules ≠ []) (policy : Ruleset policyRules) (base : Ruleset (customRules.getD policyRules))
include own policy base

theorem fast_rate_iff (least : ∀ factor, dynamic = some factor -> dynamicMin <= factor) :
  RateBelow (rate enabled policyRules customRules dynamic dynamicOn grants 1).toRateLimit
      (adjustedRate enabled policyRules customRules dynamic dynamicOn grants previous .fast).toRateLimit ↔
    ¬ ((enabled = false /\ customRules = none) /\ policyRules ≠ [] /\ rateUnlimited (grants.map GrantRow.toGrant) = []) := by
  constructor
  · rintro below ⟨⟨off, plain⟩, ruled, free⟩
    have nonempty : customRules.getD policyRules ≠ [] := by
      rw [plain]
      exact ruled
    have limited : (adjustedRate enabled policyRules customRules dynamic dynamicOn grants previous .fast).limited :=
      adjustedRate_limited nonempty policy base rfl free
    rcases ((rate_limited_iff _ _ _ _ _ _ _).mp (below limited).1).1.1 with on | some
    · exact Bool.false_ne_true (off.symm.trans on)
    · rw [plain] at some
      cases some
  · intro quiet limited
    have nonempty := adjustedRate_nonempty own policy base rfl limited
    have free := ((rate_limited_iff _ _ _ _ _ _ _).mp limited).2
    have limits : enabled \/ customRules.isSome := by
      by_contra neither
      rcases not_or.mp neither with ⟨off, plain⟩
      have absent := Option.not_isSome_iff_eq_none.mp plain
      rw [absent, Option.getD_none] at nonempty
      exact quiet ⟨⟨Bool.of_not_eq_true off, absent⟩, nonempty, free⟩
    have before := (rate_limited_iff enabled policyRules customRules dynamic dynamicOn grants 1).mpr ⟨⟨limits, nonempty⟩, free⟩
    refine ⟨before, ?_⟩
    rcases rules_over policy base previous .fast rfl with ⟨items, _, ruleset, same, next, oneOf⟩
    have some : items ≠ [] := by
      intro empty
      rw [same, empty] at nonempty
      exact nonempty rfl
    rw [rate_rules_settled base before, adjustedRate_rules ruleset next some limited, same, map_map]
    refine forall₂_map _ _ fun rule mem => ?_
    exact settled_below (change_below_fast oneOf (ruleset.bounded rule mem))
      (le_trans (by norm_num [dynamicMin]) (dynamicReduction_nonneg least _ _))
      (by norm_num [capacityReduction]) (dynamicReduction_le_one _ _ _)

theorem slow_rate_iff (quantised : ∀ factor, dynamic = some factor -> ∃ load, factor = quantise load) :
  RateBelow (adjustedRate enabled policyRules customRules dynamic dynamicOn grants previous .slow).toRateLimit
      (rate enabled policyRules customRules dynamic dynamicOn grants 1).toRateLimit ↔
    ¬ ((enabled /\ customRules = none) /\ dynamicReduction dynamic dynamicOn false < 1 /\
      (∃ rule ∈ policyRules, rule.requests = 1) /\ rateUnlimited (grants.map GrantRow.toGrant) = []) := by
  have least : ∀ factor, dynamic = some factor -> dynamicMin <= factor := by
    intro factor applied
    rcases quantised factor applied with ⟨load, rfl⟩
    exact Limits.Site.quantise_least load
  constructor
  · rintro below ⟨⟨on, plain⟩, reduces, ⟨rule, inside, single⟩, free⟩
    subst plain
    have nonempty : (none : Option (List RuleBase)).getD policyRules ≠ [] := ne_nil_of_mem inside
    have before := (rate_limited_iff enabled policyRules none dynamic dynamicOn grants 1).mpr ⟨⟨.inl on, nonempty⟩, free⟩
    rcases below before with ⟨after, rules⟩
    have next := nextRules_policy policyRules previous .slow rfl
    rw [rate_rules_settled base before, adjustedRate_rules policy next nonempty after] at rules
    have pointwise : RuleBelow ((settled 1 1 (growth grants) ∘ speedRule (1 / 2)) rule)
        (settled (dynamicReduction dynamic dynamicOn false) (capacityReduction 1) (growth grants) rule) := by
      rw [Option.getD_none, forall₂_map_left_iff, forall₂_map_right_iff] at rules
      exact forall₂_same.mp rules rule inside
    rcases dynamicReduction_reduces reduces with ⟨factor, applied, low, same⟩
    rcases quantised factor applied with ⟨_, rfl⟩
    rw [same] at pointwise
    exact slowed_overtakes (policy.bounded rule inside) single low grants pointwise
  · intro quiet before
    rcases (rate_limited_iff _ _ _ _ _ _ _).mp before with ⟨⟨limits, nonempty⟩, free⟩
    have after : (adjustedRate enabled policyRules customRules dynamic dynamicOn grants previous .slow).limited :=
      adjustedRate_limited nonempty policy base rfl free
    refine ⟨after, ?_⟩
    have whole : capacityReduction 1 = 1 := by norm_num [capacityReduction]
    by_cases reduced : customRules = none /\ dynamicReduction dynamic dynamicOn false < 1
    · rcases reduced with ⟨rfl, reduces⟩
      have next := nextRules_policy policyRules previous .slow rfl
      rw [rate_rules_settled base before, adjustedRate_rules policy next nonempty after]
      refine forall₂_map _ _ fun rule mem => ?_
      have several : rule.requests ≠ 1 := by
        intro single
        rcases limits with on | clash
        · exact quiet ⟨⟨on, rfl⟩, reduces, ⟨rule, mem, single⟩, free⟩
        · cases clash
      rw [whole]
      exact slowed_reduced (policy.bounded rule mem) several (dynamicReduction_nonneg least _ _) grants
    · have kept : dynamicReduction dynamic dynamicOn customRules.isSome = 1 := by
        cases customRules with
        | none => exact le_antisymm (dynamicReduction_le_one _ _ _) (not_lt.mp fun reduces => reduced ⟨rfl, reduces⟩)
        | some rules => exact dynamicReduction_custom dynamic dynamicOn
      rcases rules_over policy base previous .slow rfl with ⟨items, _, ruleset, same, next, oneOf⟩
      have some : items ≠ [] := by
        intro empty
        rw [same, empty] at nonempty
        exact nonempty rfl
      rw [rate_rules_settled base before, adjustedRate_rules ruleset next some after, same, map_map, kept, whole]
      refine forall₂_map _ _ fun rule mem => ?_
      exact settled_below (slow_below_change oneOf (ruleset.bounded rule mem)) zero_le_one zero_le_one (le_refl 1)

end

end Rates

section OnePool

variable {site after : Site} {now : ℚ} {user : Credits.User} {speed : Speed} {pool : Pool}

theorem Sped.exempt {adjust : Bool} (sped : Sped site after user.id speed adjust) :
  (after.preferences user.id).rateExempt = (site.preferences user.id).rateExempt := by
  rcases sped.frame with ⟨_, frame⟩
  rw [frame]
  simp [Site.withPreferences]

theorem Sped.effective_rate (sped : Sped site after user.id speed true) (mem : user.admin = false)
  (counted : (site.preferences user.id).rateExempt = false) : (after.effective now user pool).rate =
    adjustedRate (site.policies pool).rate.enabled (site.policies pool).rate.rules.val (site.override user.id pool).rules
      (site.poolDynamic user.id pool) (site.policies pool).rate.dynamic (site.poolGrants user.id pool ⌊now⌋)
      (site.preferences user.id).speed speed := by
  rw [Allowances.effective_rate after now pool mem (sped.exempt.trans counted), sped.rate pool, if_pos rfl, baseRules_eq]
  rcases sped.frame with ⟨_, frame⟩
  rw [frame]
  simp only [Site.poolDynamic, Site.withPreferences, Function.update_self]
  rfl

theorem overrideRules_eq_none (override : Override) : override.rules = none ↔ override.rateRules = none :=
  Option.map_eq_none_iff

theorem poolReduction_lt_one (site : Site) (userId : ℕ) (pool : Pool) :
  dynamicReduction (site.poolDynamic userId pool) (site.policies pool).rate.dynamic false < 1 ↔
    (site.policies pool).rate.dynamic /\ (site.preferences userId).dynamicExempt = false /\
      site.dynamicFor userId < 1 := by
  unfold dynamicReduction Site.poolDynamic Site.reacts
  cases reacts : (site.policies pool).rate.dynamic with
  | false =>
    refine ⟨fun reduces => absurd reduces ?_, fun clash => absurd clash.1 (by decide)⟩
    split
    · rw [if_neg fun applies => absurd applies.1 (by decide)]
      exact lt_irrefl 1
    · exact lt_irrefl 1
  | true =>
    cases (site.preferences userId).dynamicExempt with
    | true => exact ⟨fun clash => absurd clash (lt_irrefl 1), fun clash => absurd clash.2.1 (by decide)⟩
    | false =>
      simp only [Bool.not_false, Bool.true_or, Bool.and_self, if_true, true_and]
      by_cases reduces : site.dynamicFor userId < 1
      · rw [if_pos reduces]
      · rw [if_neg reduces]
        exact ⟨fun clash => absurd clash (lt_irrefl 1), fun clash => absurd clash reduces⟩

theorem fast_below_iff (now : ℚ) (pool : Pool) (sped : Sped site after user.id .fast true) :
  RateBelow (site.effective now user pool).rate.toRateLimit (after.effective now user pool).rate.toRateLimit ↔
    ¬ TurnsOn site now user pool := by
  by_cases applies : user.admin = false /\ (site.preferences user.id).rateExempt = false
  · rcases applies with ⟨mem, counted⟩
    rw [effective_rate site now pool mem counted, sped.effective_rate mem counted,
      fast_rate_iff (overrideRules_nonempty _) (checkedRules_ruleset _) (baseRules_ruleset site user.id pool)
        (fun factor applied => (poolDynamic_quantised site user.id pool factor applied).elim
          fun load same => same ▸ Limits.Site.quantise_least load), not_iff_not]
    constructor
    · rintro ⟨⟨off, plain⟩, ruled, free⟩
      exact ⟨mem, counted, off, (overrideRules_eq_none _).mp plain, ruled, free⟩
    · intro turns
      exact ⟨⟨turns.off, (overrideRules_eq_none _).mpr turns.plain⟩, turns.ruled, turns.limiting⟩
  · have free : (after.effective now user pool).rate.limited = false := by
      refine effective_rate_free ?_
      rw [sped.exempt]
      exact applies
    refine ⟨fun _ turns => applies ⟨turns.mem, turns.counted⟩, fun _ limited => ?_⟩
    exact absurd (free.symm.trans limited) Bool.false_ne_true

theorem slow_below_iff (now : ℚ) (pool : Pool) (sped : Sped site after user.id .slow true) :
  RateBelow (after.effective now user pool).rate.toRateLimit (site.effective now user pool).rate.toRateLimit ↔
    ¬ Lifts site now user pool := by
  by_cases applies : user.admin = false /\ (site.preferences user.id).rateExempt = false
  · rcases applies with ⟨mem, counted⟩
    rw [effective_rate site now pool mem counted, sped.effective_rate mem counted,
      slow_rate_iff (overrideRules_nonempty _) (checkedRules_ruleset _) (baseRules_ruleset site user.id pool)
        (poolDynamic_quantised site user.id pool), poolReduction_lt_one, not_iff_not]
    constructor
    · rintro ⟨⟨on, plain⟩, ⟨reacts, follows, reduced⟩, single, free⟩
      exact ⟨mem, counted, on, (overrideRules_eq_none _).mp plain, reacts, follows, reduced, single, free⟩
    · intro lifts
      exact ⟨⟨lifts.on, (overrideRules_eq_none _).mpr lifts.plain⟩, ⟨lifts.reacts, lifts.follows, lifts.reduced⟩, lifts.single,
        lifts.limiting⟩
  · have free : (site.effective now user pool).rate.limited = false := effective_rate_free applies
    refine ⟨fun _ lifts => applies ⟨lifts.mem, lifts.counted⟩, fun _ limited => ?_⟩
    exact absurd (free.symm.trans limited) Bool.false_ne_true

end OnePool

/-- Speeding up leaves no rate stricter exactly when it turns no limit on; slowing down, the other way. -/
theorem speed_direction (site : Site) (now : ℚ) (user : Credits.User) :
  (∃ after, site.setSpeed user.id .fast true = some after /\
    ((∀ pool, RateBelow (site.effective now user pool).rate.toRateLimit
        (after.effective now user pool).rate.toRateLimit) ↔
      ∀ pool, ¬ TurnsOn site now user pool)) /\
    ∃ after, site.setSpeed user.id .slow true = some after /\
      ((∀ pool, RateBelow (after.effective now user pool).rate.toRateLimit
          (site.effective now user pool).rate.toRateLimit) ↔
        ∀ pool, ¬ Lifts site now user pool) := by
  constructor
  · rcases setSpeed_sped site user.id .fast true with ⟨after, changed, sped⟩
    exact ⟨after, changed, forall_congr' fun pool => fast_below_iff now pool sped⟩
  · rcases setSpeed_sped site user.id .slow true with ⟨after, changed, sped⟩
    exact ⟨after, changed, forall_congr' fun pool => slow_below_iff now pool sped⟩

def openChat : Site :=
  { freshSite with
    policies := fun pool =>
      if pool = .chat then
        { defaultPolicy .chat with
          rate := ⟨false, (defaultPolicy .chat).rate.rules, false, fun clash => absurd clash Bool.false_ne_true⟩ }
      else defaultPolicy pool }

def busyChat : Site :=
  { freshSite with
    policies := fun pool =>
      if pool = .chat then
        { defaultPolicy .chat with rate := ⟨true, (defaultPolicy .chat).rate.rules, true, (defaultPolicy .chat).rate.ruled⟩ }
      else defaultPolicy pool
    load := fun _ => 1 / 2 }

/-- Speeding an account up gives it a request rate in chat, where nobody has one. -/
theorem speed_moves_the_wrong_way : (∀ after, openChat.setSpeed 1 .fast true = some after ->
    ¬ RateBelow (openChat.effective 0 ⟨1, false⟩ .chat).rate.toRateLimit (after.effective 0 ⟨1, false⟩ .chat).rate.toRateLimit) /\
  ∀ after, busyChat.setSpeed 1 .slow true = some after ->
    ¬ RateBelow (after.effective 0 ⟨1, false⟩ .chat).rate.toRateLimit
      (busyChat.effective 0 ⟨1, false⟩ .chat).rate.toRateLimit := by
  constructor
  · intro after changed below
    rcases setSpeed_sped openChat 1 .fast true with ⟨same, changed', sped⟩
    cases changed.symm.trans changed'
    exact (@fast_below_iff openChat after ⟨1, false⟩ 0 .chat sped).mp below
      ⟨rfl, rfl, rfl, rfl, cons_ne_nil _ _, rfl⟩
  · intro after changed below
    rcases setSpeed_sped busyChat 1 .slow true with ⟨same, changed', sped⟩
    cases changed.symm.trans changed'
    refine (@slow_below_iff busyChat after ⟨1, false⟩ 0 .chat sped).mp below
      ⟨rfl, rfl, rfl, rfl, rfl, rfl, ?_, ⟨⟨1, .second, 5⟩, mem_singleton.mpr rfl, rfl⟩, rfl⟩
    decide +kernel

end BananaChat.Allowances
