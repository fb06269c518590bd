import BananaChat.Allowances.Approvals

namespace BananaChat.Allowances

open Limits List WindowTerms Site GrantRow WindowBelow Bool RateBelow
open Option (getD_some getD_none isSome_some not_isSome map_eq_some_iff bind_eq_some_iff)

/-!
# What an approval does to limits

An approval stores at least the base of a limit, and later layers only multiply and add what is not
negative.
-/

def WindowTerms.FractionCounts (terms : WindowTerms) (period : Period) (amount : ℚ) : Prop :=
  ∃ tokens : ℤ,
    terms.afterRenounced (terms.growth period true * whole amount + terms.addition period) + 1 / 1000000 < tokens /\
      tokens <= terms.afterRenounced (terms.growth period false * amount + terms.addition period) + 1 / 1000000

theorem whole_lt_whole_iff (small large : ℚ) :
  whole small < whole large ↔ ∃ tokens : ℤ, small + 1 / 1000000 < tokens /\ tokens <= large + 1 / 1000000 := by
  unfold whole
  rw [Int.cast_lt]
  constructor
  · intro below
    exact ⟨_, Int.floor_lt.mp below, Int.floor_le _⟩
  · rintro ⟨_, above, most⟩
    exact (Int.floor_lt.mpr above).trans_le (Int.le_floor.mpr most)

theorem fractionCounts_iff (terms : WindowTerms) (period : Period) (amount : ℚ) : terms.FractionCounts period amount ↔
    terms.amount period true (whole amount) < terms.amount period false amount := by
  rw [amount_eq, amount_eq, whole_lt_whole_iff]
  rfl

variable {asked amount : ℕ} {custom : Option ℚ} {raised : ℚ} {terms : WindowTerms} {enabled automatic : Bool}
  {period : Period} {user : Credits.User}

theorem le_of_whole_lt {amount : ℚ} (more : whole amount < asked) : amount <= asked := by
  unfold whole at more
  have next : ⌊amount + 1 / 1000000⌋ + 1 <= (asked : ℤ) := by
    have strict : ⌊amount + 1 / 1000000⌋ < (asked : ℤ) := by exact_mod_cast more
    omega
  have cast : ((⌊amount + 1 / 1000000⌋ : ℤ) : ℚ) + 1 <= asked := by exact_mod_cast next
  have past := Int.lt_floor_add_one (amount + 1 / 1000000)
  linarith

theorem amount_raised (sound : terms.Sound) (period : Period) {policy : ℚ} (policyNonneg : 0 <= policy)
  (own : ∀ value, custom = some value -> whole value = value) (least : max (whole (custom.getD policy)) asked <= raised)
  (exact : custom = none -> asked <= whole policy -> raised = whole policy) :
  terms.amount period custom.isSome (custom.getD policy) <= terms.amount period true raised ↔
    ¬ (custom = none /\ asked <= whole policy /\ terms.FractionCounts period policy) := by
  cases custom with
  | some value =>
    rw [getD_some, own value rfl] at least
    refine ⟨fun _ lost => (nomatch lost.1), fun _ => ?_⟩
    exact sound.amount_mono period true ((le_max_left _ _).trans least)
  | none =>
    rw [getD_none, Option.isSome_none]
    rw [getD_none] at least
    by_cases few : (asked : ℚ) <= whole policy
    · rw [exact rfl few, fractionCounts_iff]
      exact ⟨fun kept lost => absurd kept (not_le.mpr lost.2.2), fun kept => not_lt.mp fun lost => kept ⟨rfl, few, lost⟩⟩
    · refine ⟨fun _ lost => few lost.2.1, fun _ => ?_⟩
      have above : policy <= asked := le_of_whole_lt (not_le.mp few)
      exact sound.amount_custom period policyNonneg (above.trans ((le_max_right _ _).trans least))

variable {policyTokens : ℕ} {autoTiers : Bool}

theorem window_raised (on : terms.limitedOverride.getD (enabled || custom.isSome)) :
  WindowBelow (window period enabled policyTokens autoTiers custom terms)
      (window period enabled policyTokens autoTiers (some raised) terms) ↔
    (unlimitedGrants period.scope terms.grants = [] ->
      terms.amount period custom.isSome (custom.getD (policyTokens * terms.tierFactor autoTiers)) <=
        terms.amount period true raised) := by
  have before := window_limited period enabled policyTokens autoTiers custom terms
  have after := window_limited period enabled policyTokens autoTiers (some raised) terms
  have stillOn : terms.limitedOverride.getD (enabled || (some raised).isSome) := by
    cases override : terms.limitedOverride with
    | none => rw [getD_none, isSome_some, Bool.or_true]
    | some value =>
      rw [override] at on
      exact on
  rw [on, Bool.true_and] at before
  rw [stillOn, Bool.true_and] at after
  constructor
  · intro below free
    have limitedAfter := after.trans (isEmpty_iff.mpr free)
    have tokens := (below limitedAfter).2
    rw [(window_base limitedAfter).2, (window_base (before.trans (isEmpty_iff.mpr free))).2] at tokens
    exact tokens
  · intro amounts limitedAfter
    have free : (unlimitedGrants period.scope terms.grants).isEmpty := after.symm.trans limitedAfter
    have limitedBefore := before.trans free
    refine ⟨limitedBefore, ?_⟩
    rw [(window_base limitedAfter).2, (window_base limitedBefore).2]
    exact amounts (isEmpty_iff.mp free)

theorem tierFactor_nonneg (terms : WindowTerms) (autoTiers : Bool) : 0 <= terms.tierFactor autoTiers := by
  unfold tierFactor
  split
  · cases terms.tier with
    | none => exact zero_le_one
    | some tier => exact tier.nonneg
  · exact zero_le_one

theorem rate_raised {baseRules : List RuleBase} {custom : Option (List RuleBase)} {dynamic : Option ℚ} {dynamicOn : Bool}
  {grants : List GrantRow} {capacity : ℚ} {asked : Per -> ℕ} (on : enabled \/ custom.isSome)
  (nonempty : custom.getD baseRules ≠ []) (ruleset : Ruleset (custom.getD baseRules))
  (raised : Ruleset ((custom.getD baseRules).map (raisedRule asked)))
  (least : ∀ factor, dynamic = some factor -> dynamicMin <= factor) :
  RateBelow (rate enabled baseRules custom dynamic dynamicOn grants capacity).toRateLimit
    (rate enabled baseRules (some ((custom.getD baseRules).map (raisedRule asked))) dynamic dynamicOn grants capacity).toRateLimit := by
  intro limited
  have free := ((rate_limited_iff _ _ _ _ _ _ _).mp limited).2
  have before := (rate_limited_iff enabled baseRules custom dynamic dynamicOn grants capacity).mpr ⟨⟨on, nonempty⟩, free⟩
  refine ⟨before, ?_⟩
  have stored : Ruleset ((some ((custom.getD baseRules).map (raisedRule asked))).getD baseRules) := raised
  rw [rate_rules_settled ruleset before, rate_rules_settled stored limited]
  rw [getD_some, isSome_some, dynamicReduction_custom, map_map]
  refine forall₂_map _ _ fun rule mem => ?_
  have reduction := dynamicReduction_nonneg least dynamicOn custom.isSome
  have capacityNonneg : 0 <= capacityReduction capacity := by
    unfold capacityReduction
    split
    · exact le_trans (by norm_num) (le_max_right _ _)
    · exact zero_le_one
  exact settled_below (below_raisedRule asked (ruleset.bounded rule mem)) (le_trans (by norm_num [dynamicMin]) reduction)
    capacityNonneg (dynamicReduction_le_one _ _ _)

theorem filter_append_none {Item : Type} {keeps : Item -> Bool} (items last : List Item)
  (dropped : ∀ item ∈ last, keeps item = false) : (items ++ last).filter keeps = items.filter keeps := by
  have empty : last.filter keeps = [] :=
    filter_eq_nil_iff.mpr fun item mem => not_eq_true _ ▸ dropped item mem
  rw [filter_append, empty, append_nil]

section Granted

variable {row : QuotaRow} {pool : Option Pool} {modelId : Option ℕ} {stamp : ℤ} {grant : GrantRow}

theorem relevantGrants_extra (granted : grant.kind = .extra) (scope : GrantScope) (grants : List GrantRow) :
  unlimitedGrants scope (grants ++ [grant]) = unlimitedGrants scope grants /\
    multiplierGrants scope (grants ++ [grant]) = multiplierGrants scope grants /\
    extraGrants scope grants <+: extraGrants scope (grants ++ [grant]) := by
  have dropped : ∀ kind : GrantKind, kind ≠ .extra ->
      (relevantGrants scope (grants ++ [grant])).filter (·.kind = kind) =
        (relevantGrants scope grants).filter (·.kind = kind) := by
    intro _ apart
    unfold relevantGrants
    rw [filter_filter, filter_filter]
    refine filter_append_none _ _ fun item mem => ?_
    rw [mem_singleton.mp mem, granted, decide_eq_false (Ne.symm apart), Bool.false_and]
  refine ⟨dropped .unlimited (by decide), dropped .multiplier (by decide), ?_⟩
  unfold extraGrants relevantGrants
  rw [filter_append, filter_append]
  exact prefix_append _ _

theorem window_granted (granted : Granted grant row pool modelId stamp) (period : Period) (enabled : Bool) (policyTokens : ℕ)
  (autoTiers : Bool) (custom : Option ℚ) (terms : WindowTerms) :
  WindowBelow (window period enabled policyTokens autoTiers custom terms)
    (window period enabled policyTokens autoTiers custom { terms with grants := terms.grants ++ [grant] }) := by
  intro limited
  have free := (and_eq_true_iff.mp ((window_limited _ _ _ _ _ _).symm.trans limited)).2
  rcases granted.kind with ⟨kind, scope⟩ | ⟨kind, _⟩
  · -- an unlimited grant reaches every period
    refine absurd (isEmpty_iff.mp free) (ne_nil_of_mem (a := grant) ?_)
    refine mem_filter.mpr ⟨mem_filter.mpr ⟨mem_concat_self, ?_⟩, decide_eq_true kind⟩
    rw [scope]
    rfl
  · rcases relevantGrants_extra kind period.scope terms.grants with ⟨unlimited, multipliers, extra⟩
    have before : (window period enabled policyTokens autoTiers custom terms).limited := by
      have after := (window_limited _ _ _ _ _ _).symm.trans limited
      rw [window_limited]
      rwa [unlimited] at after
    refine ⟨before, ?_⟩
    rw [(window_base before).2, (window_base limited).2, WindowTerms.amount_eq, WindowTerms.amount_eq]
    refine whole_mono (WindowTerms.afterRenounced_mono terms ?_)
    have growth : ∀ custom, ({ terms with grants := terms.grants ++ [grant] } : WindowTerms).growth period custom =
        terms.growth period custom := by
      intro _
      unfold WindowTerms.growth WindowTerms.grantGrowth
      rw [multipliers]
      rfl
    have addition : terms.addition period <=
        ({ terms with grants := terms.grants ++ [grant] } : WindowTerms).addition period := by
      unfold WindowTerms.addition WindowTerms.grantGrowth WindowTerms.grantAddition
      rw [multipliers]
      refine add_le_add (le_refl _) ?_
      rcases extra with ⟨_, joined⟩
      rw [<- joined, map_append, sum_append]
      refine le_add_of_nonneg_right (sum_nonneg fun amount mem => ?_)
      rcases mem_map.mp mem with ⟨item, inside, rfl⟩
      have mem := joined ▸ mem_append_right (extraGrants period.scope terms.grants) inside
      have isExtra := (and_eq_true_iff.mp (mem_filter.mp mem).2).1
      exact le_trans zero_le_one (item.adds (of_decide_eq_true isExtra))
    rw [growth]
    exact add_le_add (le_refl _) addition

theorem rate_granted (granted : Granted grant row pool modelId stamp) (enabled : Bool) (baseRules : List RuleBase)
  (custom : Option (List RuleBase)) (dynamic : Option ℚ) (dynamicOn : Bool) (grants : List GrantRow) (capacity : ℚ) :
  RateBelow (rate enabled baseRules custom dynamic dynamicOn grants capacity).toRateLimit
    (rate enabled baseRules custom dynamic dynamicOn (grants ++ [grant]) capacity).toRateLimit := by
  rcases granted.kind with ⟨kind, scope⟩ | ⟨kind, scope⟩
  · intro limited
    have free := ((rate_limited_iff _ _ _ _ _ _ _).mp limited).2
    refine absurd free (ne_nil_of_mem (a := grant.toGrant) ?_)
    refine mem_filter.mpr ⟨mem_map.mpr ⟨grant, mem_concat_self, rfl⟩, ?_⟩
    rw [Grant.reachesRate, scope, kind]
    rfl
  · have unreached : grant.reachesRate = false := by
      rw [Grant.reachesRate, scope]
      rfl
    have same : ∀ keeps : Grant -> Bool,
        ((grants ++ [grant]).map toGrant).filter (fun item => item.reachesRate && keeps item) =
          (grants.map toGrant).filter (fun item => item.reachesRate && keeps item) := by
      intro _
      rw [map_append]
      refine filter_append_none _ _ fun item mem => ?_
      rw [map_singleton] at mem
      rw [mem_singleton.mp mem, unreached, Bool.false_and]
    have unlimited : rateUnlimited ((grants ++ [grant]).map toGrant) = rateUnlimited (grants.map toGrant) :=
      same fun item => decide (item.kind = .unlimited)
    have multipliers : rateMultipliers ((grants ++ [grant]).map toGrant) = rateMultipliers (grants.map toGrant) :=
      same fun item => decide (item.kind = .multiplier)
    have equal : Limits.rate enabled baseRules custom dynamic dynamicOn ((grants ++ [grant]).map toGrant) capacity =
        Limits.rate enabled baseRules custom dynamic dynamicOn (grants.map toGrant) capacity := by
      unfold Limits.rate
      rw [unlimited, multipliers]
    unfold rate
    rw [equal]
    exact refl _

end Granted

theorem ceilAmount_max {base : ℚ} (nonneg : 0 <= base) (rounded : whole base = base)
  (same : ceilAmount (max base asked) = amount) : (amount : ℚ) = max base asked := by
  have natural : ∃ tokens : ℕ, base = tokens := by
    have floorNonneg : 0 <= ⌊base + 1 / 1000000⌋ := Int.floor_nonneg.mpr (by linarith)
    refine ⟨⌊base + 1 / 1000000⌋.toNat, rounded.symm.trans ?_⟩
    unfold whole
    exact_mod_cast (Int.toNat_of_nonneg floorNonneg).symm
  rcases natural with ⟨tokens, rfl⟩
  have cast : max (tokens : ℚ) asked = (max tokens asked : ℕ) := (Nat.cast_max tokens asked).symm
  rw [cast, ceilAmount_natCast] at same
  rw [cast]
  exact_mod_cast same.symm

theorem whole_nonneg {amount : ℚ} (nonneg : 0 <= amount) : 0 <= whole amount := by
  have floorNonneg : 0 <= ⌊amount + 1 / 1000000⌋ := Int.floor_nonneg.mpr (by linarith)
  exact Int.cast_nonneg floorNonneg

theorem customAmount_whole {override : Override} {policy : WindowSection} {tier : Option Tier} {value : ℚ}
  (own : customAmount override period policy tier = some value) : whole value = value /\ 0 <= value := by
  unfold customAmount at own
  cases stored : override.tokens period with
  | none =>
    rw [stored] at own
    cases own
  | some amount =>
    rw [stored] at own
    dsimp only at own
    split at own
    · cases own
      exact ⟨whole_natCast amount, Nat.cast_nonneg amount⟩
    · cases own
      exact ⟨whole_max amount _, le_max_of_le_left (Nat.cast_nonneg amount)⟩

theorem customAmount_congr {before after : Override} (policy : WindowSection) (tier : Option Tier)
  (tokens : after.tokens period = before.tokens period)
  (marks : period.field ∈ after.automatic ↔ period.field ∈ before.automatic) :
  customAmount after period policy tier = customAmount before period policy tier := by
  unfold customAmount
  rw [tokens]
  cases before.tokens period with
  | none => rfl
  | some value =>
    dsimp only
    rw [if_congr (not_congr marks) rfl rfl]

theorem TokensStored.other_fields {before after : Override} (stored : TokensStored before after period automatic amount)
  {field : OverrideField} (apart : field ≠ period.field) : field ∈ after.automatic ↔ field ∈ before.automatic := by
  rw [stored.marks]
  unfold keepFloor
  dsimp only
  split
  · rw [Finset.mem_erase]
    exact ⟨fun both => both.2, fun mem => ⟨apart, mem⟩⟩
  · split
    · rw [Finset.mem_insert]
      exact ⟨fun either => either.resolve_left apart, .inr⟩
    · exact Iff.rfl

theorem field_injective {first second : Period} (same : first.field = second.field) : first = second := by
  cases first <;> cases second <;> first | rfl | cases same

theorem window_approved (period : Period) (sound : terms.Sound)
  (on : terms.limitedOverride.getD (enabled || custom.isSome))
  (own : ∀ value, custom = some value -> whole value = value /\ 0 <= value)
  (same : ceilAmount (max (whole (custom.getD (policyTokens * terms.tierFactor autoTiers))) asked) = amount)
  (choice : raised = amount \/ raised = max (amount : ℚ) (whole (policyTokens * terms.tierFactor autoTiers))) :
  WindowBelow (window period enabled policyTokens autoTiers custom terms)
      (window period enabled policyTokens autoTiers (some raised) terms) ↔
    ¬ (custom = none /\ (asked : ℚ) <= whole (policyTokens * terms.tierFactor autoTiers) /\
      unlimitedGrants period.scope terms.grants = [] /\
      terms.FractionCounts period (policyTokens * terms.tierFactor autoTiers)) := by
  have shareNonneg : 0 <= (policyTokens : ℚ) * terms.tierFactor autoTiers :=
    mul_nonneg (Nat.cast_nonneg _) (tierFactor_nonneg terms autoTiers)
  have baseNonneg : 0 <= whole (custom.getD (policyTokens * terms.tierFactor autoTiers)) := by
    refine whole_nonneg ?_
    cases chosen : custom with
    | none => exact shareNonneg
    | some value => exact (own value chosen).2
  have stored := ceilAmount_max baseNonneg (whole_whole _) same
  have least : max (whole (custom.getD (policyTokens * terms.tierFactor autoTiers))) asked <= raised := by
    rw [<- stored]
    rcases choice with plain | floor
    · exact plain.ge
    · exact floor ▸ le_max_left _ _
  have exact : custom = none -> (asked : ℚ) <= whole (policyTokens * terms.tierFactor autoTiers) ->
      raised = whole (policyTokens * terms.tierFactor autoTiers) := by
    intro none few
    rw [none, getD_none, max_eq_left few] at stored
    rcases choice with plain | floor
    · exact plain.trans stored
    · rw [floor, stored, max_self]
  rw [window_raised on]
  have amounts := amount_raised sound period shareNonneg (fun value chosen => (own value chosen).1) least exact
  constructor
  · rintro kept ⟨none, few, free, lost⟩
    exact amounts.mp (kept free) ⟨none, few, lost⟩
  · intro kept free
    exact amounts.mpr fun lost => kept ⟨lost.1, lost.2.1, free, lost.2.2⟩

section OnePool

variable {site : Site} {now : ℚ} {userId : ℕ} {pool : Pool}

theorem poolWindow_stored (site : Site) (now : ℚ) (userId : ℕ) (pool : Pool) (row : Option Override) (period : Period) :
  (site.withOverride userId pool row).poolWindow now userId pool period =
    window period ((site.policies pool).period period).enabled ((site.policies pool).period period).tokens
      ((site.policies pool).period period).autoTiers
      (customAmount (row.getD .unset) period ((site.policies pool).period period) (site.poolTier userId pool))
      (site.poolTerms now userId pool period) := by
  have own := site.withOverride_same userId pool row
  unfold poolWindow
  rw [own]
  rfl

variable {row : Option Override}

theorem poolWindow_raised (enabled : (site.baseLimits userId pool).enabled period)
  (stored : TokensStored (site.override userId pool) (row.getD .unset) period automatic amount)
  (same : ceilAmount (max ((site.baseLimits userId pool).tokens period) asked) = amount) :
  WindowBelow (site.poolWindow now userId pool period) ((site.withOverride userId pool row).poolWindow now userId pool period) ↔
    ¬ ((site.override userId pool).tokens period = none /\ (asked : ℚ) <= whole (site.poolShare userId pool period) /\
      unlimitedGrants period.scope (site.poolGrants userId pool ⌊now⌋) = [] /\
      (site.poolTerms now userId pool period).FractionCounts period (site.poolShare userId pool period)) := by
  have plain : customAmount (site.override userId pool) period ((site.policies pool).period period) (site.poolTier userId pool) =
      none ↔ (site.override userId pool).tokens period = none := by
    rw [<- Option.isNone_iff_eq_none, <- Option.isNone_iff_eq_none, <- not_isSome, <- not_isSome, customAmount_isSome]
  -- what is in force now is the stored amount, or the policy's over it
  have raised : ∃ value : ℚ, customAmount (row.getD .unset) period ((site.policies pool).period period)
      (site.poolTier userId pool) = some value /\
        (value = amount \/ value = max (amount : ℚ) (whole (site.poolShare userId pool period))) := by
    unfold customAmount
    rw [stored.tokens]
    dsimp only
    split
    · exact ⟨_, rfl, .inl rfl⟩
    · exact ⟨_, rfl, .inr rfl⟩
  rcases raised with ⟨value, current, choice⟩
  rw [<- pool_base] at same
  rw [poolWindow_stored, current, <- plain]
  exact window_approved period (poolTerms_sound site now userId pool period) ((pool_enabled site now userId pool period).trans enabled)
    (fun value own => customAmount_whole own) same choice

theorem poolWindow_kept (tokens : (row.getD .unset).tokens period = (site.override userId pool).tokens period)
  (marks : period.field ∈ (row.getD .unset).automatic ↔ period.field ∈ (site.override userId pool).automatic) :
  (site.withOverride userId pool row).poolWindow now userId pool period = site.poolWindow now userId pool period := by
  rw [poolWindow_stored, customAmount_congr _ _ tokens marks]
  rfl

theorem pool_tokens_raised (mem : user.admin = false) (enabled : (site.baseLimits user.id pool).enabled period)
  (stored : TokensStored (site.override user.id pool) (row.getD .unset) period automatic amount)
  (same : ceilAmount (max ((site.baseLimits user.id pool).tokens period) asked) = amount) :
  ((∀ other, WindowBelow ((site.effective now user pool).period other)
        (((site.withOverride user.id pool row).effective now user pool).period other)) /\
      RateBelow (site.effective now user pool).rate.toRateLimit
        ((site.withOverride user.id pool row).effective now user pool).rate.toRateLimit) ↔
    ¬ ((site.override user.id pool).tokens period = none /\ (asked : ℚ) <= whole (site.poolShare user.id pool period) /\
      unlimitedGrants period.scope (site.poolGrants user.id pool ⌊now⌋) = [] /\
      (site.poolTerms now user.id pool period).FractionCounts period (site.poolShare user.id pool period)) := by
  rw [<- poolWindow_raised enabled stored same]
  constructor
  · intro below
    have own := below.1 period
    rwa [effective_period _ now pool mem, effective_period _ now pool mem] at own
  · intro below
    constructor
    · intro other
      rw [effective_period _ now pool mem, effective_period _ now pool mem]
      by_cases apart : other = period
      · rw [apart]
        exact below
      · rw [poolWindow_kept (stored.others other apart) (stored.other_fields fun same => apart (field_injective same))]
        exact refl _
    · by_cases counted : (site.preferences user.id).rateExempt = false
      · have rules : ((site.withOverride user.id pool row).override user.id pool).rules = (site.override user.id pool).rules := by
          rw [withOverride_same]
          exact congrArg (Option.map CustomRules.rules) stored.rules
        rw [effective_rate site now pool mem counted, effective_rate (site.withOverride user.id pool row) now pool mem counted,
          rules]
        exact refl _
      · intro limited
        have free : ¬ (user.admin = false /\ ((site.withOverride user.id pool row).preferences user.id).rateExempt = false) :=
          fun both => counted both.2
        exact absurd ((effective_rate_free free).symm.trans limited) false_ne_true

theorem pool_rate_raised (mem : user.admin = false) {asked : Per -> ℕ}
  (enabled : (site.baseLimits user.id pool).rateEnabled)
  (raised : Ruleset ((site.baseLimits user.id pool).rateRules.map (raisedRule asked)))
  (stored : RateStored (site.override user.id pool) (row.getD .unset)
    ((site.baseLimits user.id pool).rateRules.map (raisedRule asked))) :
  (∀ other, WindowBelow ((site.effective now user pool).period other)
      (((site.withOverride user.id pool row).effective now user pool).period other)) /\
    RateBelow (site.effective now user pool).rate.toRateLimit
      ((site.withOverride user.id pool row).effective now user pool).rate.toRateLimit := by
  have parts : ((site.preferences user.id).rateExempt = false /\
      ((site.policies pool).rate.enabled \/ (site.override user.id pool).hasRate)) /\
        (site.baseLimits user.id pool).rateRules ≠ [] := by
    simpa [baseLimits, baseOf] using enabled
  constructor
  · intro other
    rw [effective_period _ now pool mem, effective_period _ now pool mem,
      poolWindow_kept (stored.tokens other) (stored.marks other)]
    exact refl _
  · rw [effective_rate site now pool mem parts.1.1,
      effective_rate (site.withOverride user.id pool row) now pool mem parts.1.1, withOverride_same, stored.rate]
    have own : (site.override user.id pool).rules.isSome = (site.override user.id pool).hasRate := Option.isSome_map
    refine rate_raised (own ▸ parts.1.2) parts.2 (baseRules_ruleset site user.id pool) raised fun factor applied => ?_
    rcases poolDynamic_quantised site user.id pool factor applied with ⟨load, rfl⟩
    exact Limits.Site.quantise_least load

theorem pool_granted (mem : user.admin = false) {request : QuotaRow} {grant : GrantRow}
  (owner : request.userId = user.id) (granted : Granted grant request (some pool) none ⌊now⌋) :
  (∀ other, WindowBelow ((site.effective now user pool).period other)
      (((site.withGrant grant).effective now user pool).period other)) /\
    RateBelow (site.effective now user pool).rate.toRateLimit
      ((site.withGrant grant).effective now user pool).rate.toRateLimit := by
  have grants : (site.withGrant grant).poolGrants user.id pool ⌊now⌋ = site.poolGrants user.id pool ⌊now⌋ ++ [grant] := by
    have reaches : grant.forPool pool := by
      rw [Grant.forPool, granted.place.1, granted.place.2]
      simp
    unfold poolGrants
    rw [<- owner, withGrant_activeGrants granted, filter_append, filter_singleton, reaches, cond_true]
  constructor
  · intro other
    rw [effective_period _ now pool mem, effective_period _ now pool mem]
    have terms : (site.withGrant grant).poolTerms now user.id pool other =
        { site.poolTerms now user.id pool other with
          grants := (site.poolTerms now user.id pool other).grants ++ [grant] } := by
      change _ = { site.poolTerms now user.id pool other with grants := site.poolGrants user.id pool ⌊now⌋ ++ [grant] }
      rw [<- grants]
      rfl
    have after : (site.withGrant grant).poolWindow now user.id pool other =
        window other ((site.policies pool).period other).enabled ((site.policies pool).period other).tokens
          ((site.policies pool).period other).autoTiers
          (customAmount (site.override user.id pool) other ((site.policies pool).period other) (site.poolTier user.id pool))
          ((site.withGrant grant).poolTerms now user.id pool other) := rfl
    rw [after, terms]
    exact window_granted granted other _ _ _ _ _
  · by_cases counted : (site.preferences user.id).rateExempt = false
    · rw [effective_rate site now pool mem counted, effective_rate (site.withGrant grant) now pool mem counted, grants]
      exact rate_granted granted _ _ _ _ _ _ _
    · intro limited
      have free : ¬ (user.admin = false /\ ((site.withGrant grant).preferences user.id).rateExempt = false) :=
        fun both => counted both.2
      exact absurd ((effective_rate_free free).symm.trans limited) false_ne_true

end OnePool

section OneModel

variable {site : Site} {now : ℚ} {userId modelId : ℕ}

variable {row : Option ModelOverride}

theorem modelWindow_stored (site : Site) (now : ℚ) (userId modelId : ℕ)
  (exempt : (row.getD .unset).tokenExempt = (site.modelOverride userId modelId).tokenExempt) (period : Period) :
  (site.withModelOverride userId modelId row).modelWindow now userId modelId period =
    window period ((site.modelRules modelId).enabled && ((site.modelRules modelId).tokens period).isSome)
      (((site.modelRules modelId).tokens period).getD 0) (site.modelRules modelId).autoTiers
      (((row.getD .unset).tokens period).map fun value : ℕ => (value : ℚ)) (site.modelTerms now userId modelId period) := by
  have own := site.withModelOverride_same userId modelId row
  have counted : (site.withModelOverride userId modelId row).modelTokensEnabled userId modelId =
      site.modelTokensEnabled userId modelId := by
    unfold modelTokensEnabled
    rw [own, exempt]
    rfl
  have terms : (site.withModelOverride userId modelId row).modelTerms now userId modelId period =
      site.modelTerms now userId modelId period := by
    unfold modelTerms
    rw [counted]
    rfl
  unfold modelWindow
  rw [own, terms]
  rfl

theorem modelRate_stored (site : Site) (now : ℚ) (userId modelId : ℕ)
  (exempt : (row.getD .unset).rateExempt = (site.modelOverride userId modelId).rateExempt) :
  (site.withModelOverride userId modelId row).modelRate now userId modelId =
    if site.modelRateEnabled userId modelId then
      rate (site.modelRules modelId).enabled (site.modelRules modelId).rateRules.val (row.getD .unset).rules
        (site.modelDynamic userId modelId) true (site.modelGrants userId modelId ⌊now⌋) (capacityFactor (site.report modelId))
    else unlimitedRate .notLimited := by
  have own := site.withModelOverride_same userId modelId row
  have counted : (site.withModelOverride userId modelId row).modelRateEnabled userId modelId =
      site.modelRateEnabled userId modelId := by
    unfold Site.modelRateEnabled
    rw [own, exempt]
    rfl
  unfold Site.modelRate
  rw [own, counted]
  rfl

theorem model_tokens_raised (enabled : (site.modelBase userId modelId).enabled period)
  (stored : ModelTokensStored (site.modelOverride userId modelId) (row.getD .unset) period amount)
  (same : ceilAmount (max ((site.modelBase userId modelId).tokens period) asked) = amount) :
  ((∀ other, WindowBelow (site.modelWindow now userId modelId other)
        ((site.withModelOverride userId modelId row).modelWindow now userId modelId other)) /\
      RateBelow (site.modelRate now userId modelId).toRateLimit
        ((site.withModelOverride userId modelId row).modelRate now userId modelId).toRateLimit) ↔
    ¬ ((site.modelOverride userId modelId).tokens period = none /\ (asked : ℚ) <= whole (site.modelShare userId modelId period) /\
      unlimitedGrants period.scope (site.modelGrants userId modelId ⌊now⌋) = [] /\
      (site.modelTerms now userId modelId period).FractionCounts period (site.modelShare userId modelId period)) := by
  have natural : ∀ value, ((site.modelOverride userId modelId).tokens period).map (fun value : ℕ => (value : ℚ)) = some value ->
      whole value = value /\ 0 <= value := by
    intro _ own
    rcases map_eq_some_iff.mp own with ⟨amount, _, rfl⟩
    exact ⟨whole_natCast amount, Nat.cast_nonneg amount⟩
  rw [<- model_base site enabled] at same
  have approved := window_approved period (modelTerms_sound site now userId modelId period)
    ((model_enabled site now userId modelId period).trans enabled) natural same (.inl rfl)
  rw [Option.map_eq_none_iff] at approved
  have current := modelWindow_stored site now userId modelId stored.exempt.1 period
  rw [stored.tokens] at current
  refine Iff.trans ?_ approved
  constructor
  · intro below
    have own := below.1 period
    rwa [current] at own
  · intro below
    constructor
    · intro other
      by_cases apart : other = period
      · rw [apart, current]
        exact below
      · rw [modelWindow_stored site now userId modelId stored.exempt.1 other, stored.others other apart]
        exact refl _
    · have rules : (row.getD .unset).rules = (site.modelOverride userId modelId).rules :=
        congrArg (Option.map CustomRules.rules) stored.rules
      rw [modelRate_stored site now userId modelId stored.exempt.2, rules]
      exact refl _

theorem modelRules_ruleset (site : Site) (userId modelId : ℕ) : Ruleset (site.modelBase userId modelId).rateRules := by
  have rules : (site.modelBase userId modelId).rateRules = (site.modelOverride userId modelId).rules.getD
      (if (site.modelRules modelId).enabled then (site.modelRules modelId).rateRules.val else []) := rfl
  rw [rules, ModelOverride.rules]
  cases (site.modelOverride userId modelId).rateRules with
  | some custom => exact custom.ruleset
  | none =>
    rw [Option.map_none, getD_none]
    split
    · exact checkedRules_ruleset _
    · exact ⟨List.Pairwise.nil, forall_mem_nil _⟩

theorem model_rate_raised {asked : Per -> ℕ} (enabled : (site.modelBase userId modelId).rateEnabled)
  (raised : Ruleset ((site.modelBase userId modelId).rateRules.map (raisedRule asked)))
  (stored : ModelRateStored (site.modelOverride userId modelId) (row.getD .unset)
    ((site.modelBase userId modelId).rateRules.map (raisedRule asked))) :
  (∀ other, WindowBelow (site.modelWindow now userId modelId other)
      ((site.withModelOverride userId modelId row).modelWindow now userId modelId other)) /\
    RateBelow (site.modelRate now userId modelId).toRateLimit
      ((site.withModelOverride userId modelId row).modelRate now userId modelId).toRateLimit := by
  have parts : site.modelRateEnabled userId modelId /\ (site.modelBase userId modelId).rateRules ≠ [] := by
    simpa [Site.modelBase] using enabled
  -- rules without a custom rate are those of an enabled policy
  have rules : (site.modelBase userId modelId).rateRules =
      (site.modelOverride userId modelId).rules.getD (site.modelRules modelId).rateRules.val /\
        ((site.modelRules modelId).enabled \/ (site.modelOverride userId modelId).rules.isSome) := by
    have unfolded : (site.modelBase userId modelId).rateRules = (site.modelOverride userId modelId).rules.getD
        (if (site.modelRules modelId).enabled then (site.modelRules modelId).rateRules.val else []) := rfl
    rw [unfolded] at parts ⊢
    cases own : (site.modelOverride userId modelId).rules with
    | some custom => exact ⟨rfl, .inr rfl⟩
    | none =>
      rw [own, getD_none] at parts
      by_cases on : (site.modelRules modelId).enabled
      · rw [getD_none, if_pos on]
        exact ⟨rfl, .inl on⟩
      · rw [if_neg on] at parts
        exact absurd rfl parts.2
  constructor
  · intro other
    rw [modelWindow_stored site now userId modelId stored.exempt.1 other, stored.tokens other]
    exact refl _
  · have ruleset := modelRules_ruleset site userId modelId
    rw [modelRate_stored site now userId modelId stored.exempt.2, if_pos parts.1, stored.rate]
    unfold Site.modelRate
    rw [if_pos parts.1]
    rw [rules.1] at ruleset raised parts ⊢
    refine rate_raised rules.2 parts.2 ruleset raised fun factor applied => ?_
    unfold Site.modelDynamic at applied
    dsimp only at applied
    split at applied
    · cases applied
      exact Limits.Site.quantise_least _
    · cases applied

theorem model_granted {request : QuotaRow} {grant : GrantRow} (owner : request.userId = userId)
  (granted : Granted grant request none (some modelId) ⌊now⌋) :
  (∀ other, WindowBelow (site.modelWindow now userId modelId other)
      ((site.withGrant grant).modelWindow now userId modelId other)) /\
    RateBelow (site.modelRate now userId modelId).toRateLimit
      ((site.withGrant grant).modelRate now userId modelId).toRateLimit := by
  have grants : (site.withGrant grant).modelGrants userId modelId ⌊now⌋ = site.modelGrants userId modelId ⌊now⌋ ++ [grant] := by
    have reaches : grant.forModel modelId := by
      rw [Grant.forModel, granted.place.2]
      simp
    unfold Site.modelGrants
    rw [<- owner, withGrant_activeGrants granted, filter_append, filter_singleton, reaches, cond_true]
  constructor
  · intro other
    have terms : (site.withGrant grant).modelTerms now userId modelId other =
        { site.modelTerms now userId modelId other with
          grants := (site.modelTerms now userId modelId other).grants ++ [grant] } := by
      change _ = { site.modelTerms now userId modelId other with grants := site.modelGrants userId modelId ⌊now⌋ ++ [grant] }
      rw [<- grants]
      rfl
    have after : (site.withGrant grant).modelWindow now userId modelId other =
        window other ((site.modelRules modelId).enabled && ((site.modelRules modelId).tokens other).isSome)
          (((site.modelRules modelId).tokens other).getD 0) (site.modelRules modelId).autoTiers
          (((site.modelOverride userId modelId).tokens other).map fun value : ℕ => (value : ℚ))
          ((site.withGrant grant).modelTerms now userId modelId other) := rfl
    rw [after, terms]
    exact window_granted granted other _ _ _ _ _
  · by_cases counted : site.modelRateEnabled userId modelId
    · have after : (site.withGrant grant).modelRate now userId modelId =
          rate (site.modelRules modelId).enabled (site.modelRules modelId).rateRules.val (site.modelOverride userId modelId).rules
            (site.modelDynamic userId modelId) true ((site.withGrant grant).modelGrants userId modelId ⌊now⌋)
            (capacityFactor (site.report modelId)) := if_pos counted
      rw [after, grants]
      unfold Site.modelRate
      rw [if_pos counted]
      exact rate_granted granted _ _ _ _ _ _ _
    · have after : (site.withGrant grant).modelRate now userId modelId = unlimitedRate .notLimited := if_neg counted
      rw [after]
      exact fun limited => absurd limited false_ne_true

end OneModel

def LowersNothing (site after : Site) (now : ℚ) (user : Credits.User) (row : QuotaRow) : Prop :=
  match row.modelId with
  | none =>
    (∀ period, WindowBelow ((site.effective now user row.service).period period)
        ((after.effective now user row.service).period period)) /\
      RateBelow (site.effective now user row.service).rate.toRateLimit (after.effective now user row.service).rate.toRateLimit
  | some modelId =>
    ∀ model, site.catalog.model modelId = some model ->
      (∀ period, WindowBelow ((site.modelLimits now user model).period period)
          ((after.modelLimits now user model).period period)) /\
        RateBelow (site.modelLimits now user model).rate.toRateLimit (after.modelLimits now user model).rate.toRateLimit

/-- An approval replaces the amount of the policy, which had a fraction that counted, by the rounded one:
the account has no amount of its own and the request asks for no more than the policy gives by now. -/
def FractionLost (site : Site) (now : ℚ) (user : Credits.User) (row : QuotaRow) : Prop :=
  user.admin = false /\ ∃ period, row.kind = .period period /\ match row.modelId with
    | none =>
      (site.override row.userId row.service).tokens period = none /\
        (row.poolAmount period : ℚ) <= whole (site.poolShare row.userId row.service period) /\
        unlimitedGrants period.scope (site.poolGrants row.userId row.service ⌊now⌋) = [] /\
        (site.poolTerms now row.userId row.service period).FractionCounts period
          (site.poolShare row.userId row.service period)
    | some modelId =>
      (site.modelOverride row.userId modelId).tokens period = none /\
        (row.modelAmount period : ℚ) <= whole (site.modelShare row.userId modelId period) /\
        unlimitedGrants period.scope (site.modelGrants row.userId modelId ⌊now⌋) = [] /\
        (site.modelTerms now row.userId modelId period).FractionCounts period (site.modelShare row.userId modelId period)

theorem lowersNothing_admin (admin : user.admin) (site after : Site) (now : ℚ) (row : QuotaRow) :
  LowersNothing site after now user row := by
  have pools : ∀ (place : Site) (pool : Pool), place.effective now user pool = adminResult pool :=
    fun place pool => if_pos admin
  have windows : ∀ (place : Site) (model : Credits.AiModel) (period : Period),
      (place.modelLimits now user model).period period = adminWindow period := by
    intro place model period
    unfold modelLimits
    rw [if_pos admin]
    cases period <;> rfl
  have rates : ∀ (place : Site) (model : Credits.AiModel), (place.modelLimits now user model).rate = adminRate := by
    intro _ model
    unfold modelLimits
    rw [if_pos admin]
  unfold LowersNothing
  split
  · rw [pools, pools]
    exact ⟨fun period => refl _, refl _⟩
  · intro _ _
    refine ⟨fun period => ?_, ?_⟩
    · rw [windows, windows]
      exact refl _
    · rw [rates, rates]
      exact refl _

section Requests

variable {site after : Site} {now : ℚ} {user : Credits.User} {row : QuotaRow}

theorem apply_pool (mem : user.admin = false) (owner : user.id = row.userId) (forPool : row.modelId = none)
  (applied : site.apply now row = some after) : LowersNothing site after now user row ↔ ¬ FractionLost site now user row := by
  unfold LowersNothing FractionLost
  unfold apply at applied
  rw [forPool] at applied ⊢
  rw [<- owner] at applied ⊢
  dsimp only at applied ⊢
  cases kind : row.kind with
  | period period =>
    rw [kind] at applied
    dsimp only at applied
    split at applied
    · rename_i enabled
      rcases setOverride_tokens applied with ⟨_, stored, same, rfl, tokens⟩
      rw [pool_tokens_raised mem enabled tokens same]
      constructor
      · rintro kept ⟨_, _, isPeriod, lost⟩
        cases isPeriod
        exact kept lost
      · exact fun kept lost => kept ⟨mem, period, rfl, lost⟩
    · cases applied
  | rate =>
    rw [kind] at applied
    dsimp only at applied
    split at applied
    · rename_i enabled
      have nonempty : (site.baseLimits user.id row.service).rateRules ≠ [] := by
        have parts := (and_eq_true_iff.mp enabled).2
        simpa [baseLimits, baseOf] using parts
      rcases setOverride_rules (baseRules_ruleset site user.id row.service) nonempty applied with ⟨raised, _, rfl, rate⟩
      refine ⟨fun _ => ?_, fun _ => pool_rate_raised mem enabled raised rate⟩
      rintro ⟨_, period, clash, _⟩
      cases clash
    · cases applied
  | temporary =>
    rw [kind] at applied
    dsimp only at applied
    split at applied
    · rcases bind_eq_some_iff.mp applied with ⟨_, _, made⟩
      rcases map_eq_some_iff.mp made with ⟨_, created, rfl⟩
      refine ⟨fun _ => ?_, fun _ => pool_granted mem owner.symm (requestGrant_granted created)⟩
      rintro ⟨_, _, clash, _⟩
      cases clash
    · cases applied

theorem apply_model (mem : user.admin = false) (owner : user.id = row.userId) {modelId : ℕ} (forModel : row.modelId = some modelId)
  (applied : site.apply now row = some after) : LowersNothing site after now user row ↔ ¬ FractionLost site now user row := by
  unfold LowersNothing FractionLost
  unfold apply applyModel at applied
  rw [forModel] at applied ⊢
  rw [<- owner] at applied ⊢
  dsimp only at applied ⊢
  rcases bind_eq_some_iff.mp applied with ⟨model, known, carried⟩
  have sameId : model.id = modelId :=
    of_decide_eq_true (find?_some (p := fun model : Credits.AiModel => decide (model.id = modelId)) known)
  have only : ∀ statement : Credits.AiModel -> Prop,
      (∀ other, site.catalog.model modelId = some other -> statement other) ↔ statement model := by
    intro _
    constructor
    · exact fun every => every model known
    · intro holds other found
      cases known.symm.trans found
      exact holds
  rw [only]
  simp only [modelLimits_period _ now model mem, modelLimits_rate _ now model mem]
  rw [sameId] at carried ⊢
  cases kind : row.kind with
  | period period =>
    rw [kind] at carried
    dsimp only at carried
    split at carried
    · rename_i enabled
      rcases setModelOverride_tokens carried with ⟨_, stored, same, rfl, tokens⟩
      rw [model_tokens_raised enabled tokens same]
      constructor
      · rintro kept ⟨_, _, isPeriod, lost⟩
        cases isPeriod
        exact kept lost
      · exact fun kept lost => kept ⟨mem, period, rfl, lost⟩
    · cases carried
  | rate =>
    rw [kind] at carried
    dsimp only at carried
    split at carried
    · rename_i enabled
      have nonempty : (site.modelBase user.id modelId).rateRules ≠ [] := by
        have parts := (and_eq_true_iff.mp enabled).2
        simpa [modelBase] using parts
      rcases setModelOverride_rules (modelRules_ruleset site user.id modelId) nonempty carried with ⟨raised, _, rfl, rate⟩
      refine ⟨fun _ => ?_, fun _ => model_rate_raised enabled raised rate⟩
      rintro ⟨_, period, clash, _⟩
      cases clash
    · cases carried
  | temporary =>
    rw [kind] at carried
    dsimp only at carried
    split at carried
    · rcases bind_eq_some_iff.mp carried with ⟨_, _, counted⟩
      rcases bind_eq_some_iff.mp counted with ⟨_, _, made⟩
      rcases map_eq_some_iff.mp made with ⟨_, created, rfl⟩
      refine ⟨fun _ => ?_, fun _ => model_granted owner.symm (requestGrant_granted created)⟩
      rintro ⟨_, _, clash, _⟩
      cases clash
    · cases carried

end Requests

/-- Approving a request lowers no limit of its account, unless a fraction of the policy's amount is lost. -/
theorem approval_lowers_nothing (site after : Site) (now : ℚ) (user : Credits.User) (row : QuotaRow)
  (owner : user.id = row.userId) (applied : site.apply now row = some after) :
  LowersNothing site after now user row ↔ ¬ FractionLost site now user row := by
  by_cases admin : user.admin
  · exact ⟨fun _ lost => Bool.false_ne_true (lost.1.symm.trans admin), fun _ => lowersNothing_admin admin site after now row⟩
  · cases place : row.modelId with
    | none => exact apply_pool (Bool.of_not_eq_true admin) owner place applied
    | some modelId => exact apply_model (Bool.of_not_eq_true admin) owner place applied

def plainRequest : QuotaRow :=
  ⟨1, .period .window, some .api, none, some 50000, some 50, none, none, [], none, false, false⟩

/-- On a fresh site the request for more than the default lowers nothing. -/
theorem approval_lowers_nothing_fresh :
  ∃ after, freshSite.apply 0 plainRequest = some after /\ LowersNothing freshSite after 0 ⟨1, false⟩ plainRequest := by
  have carried : (freshSite.apply 0 plainRequest).isSome := by decide +kernel
  rcases Option.isSome_iff_exists.mp carried with ⟨after, applied⟩
  refine ⟨after, applied, (approval_lowers_nothing freshSite after 0 ⟨1, false⟩ plainRequest rfl applied).mpr ?_⟩
  rintro ⟨_, period, isPeriod, _, few, _⟩
  cases isPeriod
  have more : ¬ ((plainRequest.poolAmount .window : ℚ) <= whole (freshSite.poolShare 1 .api .window)) := by decide +kernel
  exact more few

def scaledApi : Policy := { defaultPolicy .api with window := ⟨true, 45001, false, true, by decide⟩ }

def generousSite : Site :=
  { freshSite with
    policies := Function.update defaultPolicy .api scaledApi
    tiers := [⟨1, "plus", 3 / 2, by norm_num⟩]
    grants := [⟨⟨1, none, some .api, none, some .window, .multiplier, 2, fun _ => by norm_num [multiplierMax]⟩, 0, none, false,
      nofun⟩] }

def overtakenRequest : QuotaRow :=
  ⟨1, .period .window, some .api, none, some 46000, some 46, none, none, [], none, false, false⟩

/-- Approving it leaves one token less: 67,501 times two is not 67,501.5 times two. -/
theorem approval_loses_a_token : ∃ after, generousSite.apply 0 overtakenRequest = some after /\
    ((generousSite.effective 0 ⟨1, false⟩ .api).period .window).tokens = 135003 /\
    ((after.effective 0 ⟨1, false⟩ .api).period .window).tokens = 135002 /\
    ¬ LowersNothing generousSite after 0 ⟨1, false⟩ overtakenRequest := by
  have carried : (generousSite.apply 0 overtakenRequest).isSome := by decide +kernel
  rcases Option.isSome_iff_exists.mp carried with ⟨after, applied⟩
  have less : ((generousSite.apply 0 overtakenRequest).map fun after =>
      (((after.effective 0 ⟨1, false⟩ .api).period .window).limited,
        ((after.effective 0 ⟨1, false⟩ .api).period .window).tokens)) = some (true, 135002) := by decide +kernel
  have start : ((generousSite.effective 0 ⟨1, false⟩ .api).period .window).tokens = 135003 := by decide +kernel
  rw [applied, Option.map_some, Option.some.injEq, Prod.mk.injEq] at less
  refine ⟨after, applied, start, less.2, fun kept => ?_⟩
  have below : ((generousSite.effective 0 ⟨1, false⟩ .api).period .window).tokens <=
      ((after.effective 0 ⟨1, false⟩ .api).period .window).tokens := (kept.1 .window less.1).2
  rw [start, less.2] at below
  norm_num at below

end BananaChat.Allowances
