import BananaChat.Limits.RateRules

namespace BananaChat.Limits

open Foundation List

/-!
# The cleanup of request-rate buckets

`Site` is everything the request rates are computed from that stays: policies, overrides, settings
of accounts and grants.
-/

structure PoolRatePolicy where
  enabled : Bool
  rules : CheckedRules
  dynamic : Bool

structure ModelRatePolicy where
  enabled : Bool
  rateEnabled : Bool
  rateRules : CheckedRules
  dynamic : Bool
  sensitivity : ℚ

/-- A row of `user_limit_overrides`. -/
structure OverrideRow where
  userId : ℕ
  pool : Pool
  rateRules : RulesText

/-- A row of `user_model_limits`. -/
structure ModelOverrideRow where
  userId : ℕ
  modelId : ℕ
  rateRules : RulesText
  locked : Bool
  rateExempt : Bool

/-- A row of `ai_models`. -/
structure CatalogRow where
  id : ℕ
  provider : ℕ

/-- Everything the rates are computed from that does not change: policies, overrides,
settings of accounts, and the grants in force, in the order of their ids. -/
structure Site where
  poolPolicy : Pool -> PoolRatePolicy
  models : List CatalogRow
  modelPolicy : ℕ -> ModelRatePolicy
  overrides : List OverrideRow
  modelOverrides : List ModelOverrideRow
  isAdmin : ℕ -> Bool
  rateExempt : ℕ -> Bool
  dynamicExempt : ℕ -> Bool
  grants : List Grant
  grantsOrdered : grants.Pairwise (fun first second => first.id < second.id)
  /-- The providers that registered a report. -/
  capacityProviders : List ℕ

namespace Site

variable (site : Site)

def activeGrants (userId : ℕ) : List Grant := site.grants.filter (Grant.isFor userId)

def overrideRules (userId : ℕ) (pool : Pool) : Option (List RuleBase) :=
  (site.overrides.find? fun row => row.userId = userId /\ row.pool = pool).bind
    (rulesColumn ·.rateRules)

def modelOverride (userId modelId : ℕ) : Option ModelOverrideRow :=
  site.modelOverrides.find? (fun row => row.userId = userId /\ row.modelId = modelId)

def modelOverrideRules (userId modelId : ℕ) : Option (List RuleBase) :=
  (site.modelOverride userId modelId).bind (rulesColumn ·.rateRules)

/-- `rate_limit`, at a load of the site. -/
def rateLimit (userId : ℕ) (pool : Pool) (demand : ℚ) : RateLimit :=
  if site.isAdmin userId then ⟨false, []⟩
  else if site.rateExempt userId then ⟨false, []⟩
  else
    let policy := site.poolPolicy pool
    let customRules := site.overrideRules userId pool
    let dynamic := if policy.enabled && policy.dynamic && !customRules.isSome && !site.dynamicExempt userId then
        some (quantise demand)
      else none
    rate policy.enabled policy.rules.val customRules dynamic policy.dynamic
      ((site.activeGrants userId).filter (Grant.forPool pool)) 1

structure Capacity where
  windowLeft : Option ℚ
  weeklyLeft : Option ℚ

def capacityComfort : ℚ := 1 / 2

/-- `capacity_factor`.  A report that fails says nothing. -/
def capacityFactor (model : CatalogRow) (report : Option Capacity) : ℚ :=
  if model.provider ∉ site.capacityProviders then 1
  else match report with
    | none => 1
    | some capacity =>
      match ([capacity.windowLeft, capacity.weeklyLeft].filterMap id).min? with
      | none => 1
      | some least =>
        let fraction := max 0 (min 1 least)
        roundDecimals 2 (roundEven (min 1 (fraction / capacityComfort) / dynamicStep) * dynamicStep)

/-- The request rate of `model_limits`. -/
def modelRate (userId : ℕ) (model : CatalogRow) (demand capacity : ℚ) : RateLimit :=
  let policy := site.modelPolicy model.id
  let exempt := site.rateExempt userId || ((site.modelOverride userId model.id).map ModelOverrideRow.rateExempt).getD false
  let dynamic := if policy.enabled && policy.dynamic && !site.dynamicExempt userId then
      some (scaled (quantise demand) policy.sensitivity)
    else none
  if policy.rateEnabled && !exempt then
    rate policy.enabled policy.rateRules.val (site.modelOverrideRules userId model.id) dynamic true
      ((site.activeGrants userId).filter (Grant.forModel model.id)) capacity
  else ⟨false, []⟩

inductive Refusal
  | poolTokens
  | modelLocked
  | capacity
  | modelTokens
  | modelRate

structure Admission where
  refusal : Option Refusal
  decision : Option RateDecision

/-- What a request meets besides the rates: the load, the provider's report, and whether
tokens of the pool or of the model are spent. -/
structure Circumstances where
  demand : ℚ
  report : Option Capacity
  poolSpent : Bool
  modelSpent : Bool
  takeRate : Bool

def poolName : Pool -> ℕ
  | .api => 0
  | .chat => 1
  | .agent => 2

def checkRate (userId : ℕ) (pool : Pool) (demand now : ℚ) (table : RateBuckets BucketKey) :
  RateBuckets BucketKey × RateDecision :=
  take table (.pool (poolName pool)) userId (site.rateLimit userId pool demand) now

def modelRefusal (userId : ℕ) (model : CatalogRow) (capacity : ℚ) (spent : Bool) : Option Refusal :=
  if ((site.modelOverride userId model.id).map ModelOverrideRow.locked).getD false then some .modelLocked
  else if capacity <= 0 then some .capacity
  else if spent then some .modelTokens
  else none

/-- `admit`. -/
def admitRequest (userId modelId : ℕ) (circumstances : Circumstances) (now : ℚ) (table : RateBuckets BucketKey) :
  RateBuckets BucketKey × Admission :=
  if site.isAdmin userId then (table, ⟨none, none⟩)
  else if circumstances.poolSpent then (table, ⟨some .poolTokens, none⟩)
  else match site.models.find? (·.id = modelId) with
    | none => (table, ⟨none, none⟩)
    | some model =>
      let capacity := site.capacityFactor model circumstances.report
      match site.modelRefusal userId model capacity circumstances.modelSpent with
      | some refusal => (table, ⟨some refusal, none⟩)
      | none =>
        let limit := site.modelRate userId model circumstances.demand capacity
        if circumstances.takeRate && limit.limited then
          let taken := take table (.model model.id) userId limit now
          (taken.1, ⟨if taken.2.allowed then none else some .modelRate, some taken.2⟩)
        else (table, ⟨none, none⟩)

def applies (pool : Option Pool) (modelId : Option ℕ) (grant : Grant) : Bool :=
  match modelId with
  | some id => grant.modelId = some id
  | none => grant.modelId = none && (grant.pool = none || grant.pool = pool)

/-- `_cleanup_grant_sets`: for one account, or for an account without grants of its own and
every account with some. -/
def cleanupGrantSets (grants : List Grant) (pool : Option Pool) (modelId userId : Option ℕ) : List (List Grant) :=
  let applicable := grants.filter (applies pool modelId)
  let group := fun user : Option ℕ => applicable.filter (·.userId = user)
  let own := match userId with
    | some user => [group (some user)]
    | none => [] :: ((applicable.filterMap Grant.userId).eraseDups.map fun user => group (some user))
  own.map (fun items => (group none ++ items).mergeSort fun first second => first.id <= second.id)

def longerRefill (longest : ℚ) (pair : RateRule × RateRule) : ℚ :=
  max longest ((max pair.1.burst pair.2.burst : ℕ) / pair.1.perSecond)

def cleanupRefillSeconds (rules : List RuleBase) (dynamic capacity : Bool) (grantSets : List (List Grant)) : ℚ :=
  grantSets.foldl (fun longest grants =>
    let small := rate true rules none (some dynamicMin) dynamic grants (if capacity then dynamicStep else 1)
    let large := rate true rules none none false grants 1
    (small.rules.zip large.rules).foldl longerRefill longest) 0

def bucketIdleSeconds : ℚ := 86400

def cleanupGrants : List Grant := rateMultipliers site.grants

def hasReport (model : CatalogRow) : Bool := model.provider ∈ site.capacityProviders

/-- `capacities.get(model_id, False)`. -/
def capacityOf (modelId : ℕ) : Bool := ((site.models.find? (·.id = modelId)).map site.hasReport).getD false

def customRefill (column : RulesText) (capacity : Bool) (pool : Option Pool) (modelId : Option ℕ) (userId : ℕ) : List ℚ :=
  match column with
  | some (some raw) =>
    match validateRules raw with
    | some rules => [cleanupRefillSeconds rules false capacity (cleanupGrantSets site.cleanupGrants pool modelId (some userId))]
    | none => []
  | _ => []

def refills : List ℚ :=
  [Pool.api, Pool.chat, Pool.agent].map (fun pool =>
      cleanupRefillSeconds (site.poolPolicy pool).rules.val (site.poolPolicy pool).dynamic false
        (cleanupGrantSets site.cleanupGrants (some pool) none none)) ++
    site.models.map (fun model =>
      cleanupRefillSeconds (site.modelPolicy model.id).rateRules.val (site.modelPolicy model.id).dynamic
        (site.hasReport model) (cleanupGrantSets site.cleanupGrants none (some model.id) none)) ++
    site.overrides.flatMap (fun row => site.customRefill row.rateRules false (some row.pool) none row.userId) ++
    site.modelOverrides.flatMap (fun row =>
      site.customRefill row.rateRules (site.capacityOf row.modelId) none (some row.modelId) row.userId)

def idleSeconds : ℚ := site.refills.foldl max bucketIdleSeconds

def purgeBuckets (idle now : ℚ) (table : RateBuckets BucketKey) : RateBuckets BucketKey :=
  fun key => (table key).filter (¬ ·.updatedAt < now - idle)

def forgetIdleBuckets (now : ℚ) (table : RateBuckets BucketKey) : RateBuckets BucketKey :=
  purgeBuckets site.idleSeconds now table

theorem merged_grants {applicable : List Grant} (ordered : applicable.Pairwise fun first second => first.id < second.id)
  (userId : ℕ) :
  (applicable.filter (·.userId = none) ++ applicable.filter (·.userId = some userId)).mergeSort
        (fun first second => decide (first.id <= second.id)) = applicable.filter (Grant.isFor userId) := by
  have parts : List.Perm (applicable.filter (·.userId = none) ++
      applicable.filter (·.userId = some userId)) (applicable.filter (Grant.isFor userId)) := by
    have split := filter_append_perm (fun grant : Grant => decide (grant.userId = none))
      (applicable.filter (Grant.isFor userId))
    have common : (applicable.filter (Grant.isFor userId)).filter (·.userId = none) =
        applicable.filter (·.userId = none) := by
      rw [filter_filter]
      refine filter_congr fun grant _ => ?_
      cases owner : grant.userId <;> simp [Grant.isFor, owner]
    have own : (applicable.filter (Grant.isFor userId)).filter (fun grant => !decide (grant.userId = none)) =
        applicable.filter (·.userId = some userId) := by
      rw [filter_filter]
      refine filter_congr fun grant _ => ?_
      cases owner : grant.userId <;> simp [Grant.isFor, owner]
    rwa [common, own] at split
  have kept : (applicable.filter (Grant.isFor userId)).Pairwise (fun first second => first.id < second.id) :=
    ordered.filter _
  have inOrder : (applicable.filter (Grant.isFor userId)).Pairwise
      (fun first second => decide (first.id <= second.id) = true) :=
    kept.imp fun less => decide_eq_true less.le
  refine List.Perm.eq_of_pairwise ?_ ?_ inOrder ((mergeSort_perm _ _).trans parts)
  · intro first second sorted mem below above
    have inside : first ∈ applicable.filter (Grant.isFor userId) :=
      ((mergeSort_perm _ _).trans parts).subset sorted
    have distinct : ((applicable.filter (Grant.isFor userId)).map Grant.id).Nodup :=
      pairwise_map.mpr (kept.imp fun less => less.ne)
    exact inj_on_of_nodup_map distinct inside mem
      ((of_decide_eq_true below).antisymm (of_decide_eq_true above))
  · exact pairwise_mergeSort (fun first second third below above =>
        decide_eq_true ((of_decide_eq_true below).trans (of_decide_eq_true above)))
      (fun first second => by
        rw [Bool.or_eq_true, decide_eq_true_eq, decide_eq_true_eq]
        exact le_total _ _) _

variable {grants : List Grant} {rules : List RuleBase}

theorem rateMultipliers_pure (pure : ∀ grant ∈ grants, (grant.reachesRate && decide (grant.kind = .multiplier))) :
  rateUnlimited grants = [] /\ rateMultipliers grants = grants := by
  constructor
  · refine filter_eq_nil_iff.mpr fun grant mem => ?_
    have kind := pure grant mem
    rw [Bool.and_eq_true, decide_eq_true_eq] at kind
    rw [kind.2]
    simp
  · exact filter_eq_self.mpr pure

theorem ownGrants_mem (pool : Option Pool) (modelId : Option ℕ) (userId : ℕ) :
  (site.cleanupGrants.filter (applies pool modelId)).filter (Grant.isFor userId) ∈
      cleanupGrantSets site.cleanupGrants pool modelId (some userId) /\
    (site.cleanupGrants.filter (applies pool modelId)).filter (Grant.isFor userId) ∈
      cleanupGrantSets site.cleanupGrants pool modelId none := by
  have ordered : (site.cleanupGrants.filter (applies pool modelId)).Pairwise (fun first second => first.id < second.id) :=
    (site.grantsOrdered.filter _).filter _
  have merged := merged_grants ordered userId
  refine ⟨mem_map.mpr ⟨_, mem_singleton_self _, merged⟩, ?_⟩
  by_cases has : some userId ∈ (site.cleanupGrants.filter (applies pool modelId)).map Grant.userId
  · rcases mem_map.mp has with ⟨grant, mem, owner⟩
    refine mem_map.mpr ⟨_, mem_cons_of_mem _ (mem_map.mpr ⟨userId, ?_, rfl⟩), merged⟩
    exact mem_eraseDups.mpr (mem_filterMap.mpr ⟨grant, mem, owner⟩)
  · have none : (site.cleanupGrants.filter (applies pool modelId)).filter
        (fun grant => decide (grant.userId = some userId)) = [] := by
      refine filter_eq_nil_iff.mpr fun grant mem owned => has ?_
      exact mem_map.mpr ⟨grant, mem, of_decide_eq_true owned⟩
    rw [none] at merged
    exact mem_map.mpr ⟨[], mem_cons_self, merged⟩

theorem poolMultipliers_eq (userId : ℕ) (pool : Pool) :
  rateMultipliers ((site.activeGrants userId).filter (Grant.forPool pool)) =
    (site.cleanupGrants.filter (applies (some pool) none)).filter (Grant.isFor userId) := by
  simp only [rateMultipliers, activeGrants, cleanupGrants, filter_filter]
  refine filter_congr fun grant _ => ?_
  simp only [applies, Grant.forPool]
  cases grant.reachesRate <;> cases Grant.isFor userId grant <;> simp [Bool.and_comm]

theorem modelMultipliers_eq (userId modelId : ℕ) (pool : Option Pool) :
  rateMultipliers ((site.activeGrants userId).filter (Grant.forModel modelId)) =
    (site.cleanupGrants.filter (applies pool (some modelId))).filter (Grant.isFor userId) := by
  simp only [rateMultipliers, activeGrants, cleanupGrants, filter_filter]
  refine filter_congr fun grant _ => ?_
  cases kind : grant.kind <;> cases grant.reachesRate <;> cases Grant.isFor userId grant <;>
    simp [applies, Grant.forModel, kind, Bool.and_comm]

def FillsWithin (idle : ℚ) (rule : RateRule) : Prop := 0 < rule.perSecond /\ rule.burst <= idle * rule.perSecond

theorem foldl_above {Item : Type} {step : ℚ -> Item -> ℚ} (grows : ∀ longest item, longest <= step longest item)
  (items : List Item) (start : ℚ) : start <= items.foldl step start := by
  induction items generalizing start with
  | nil => exact le_refl start
  | cons first rest ih => exact (grows start first).trans (ih _)

theorem foldl_reaches {Item : Type} {step : ℚ -> Item -> ℚ} (grows : ∀ longest item, longest <= step longest item)
  {items : List Item} {item : Item} (mem : item ∈ items) {bound : ℚ}
  (reached : ∀ longest, bound <= step longest item) (start : ℚ) : bound <= items.foldl step start := by
  induction items generalizing start with
  | nil => cases mem
  | cons first rest ih =>
    rcases mem_cons.mp mem with same | later
    · subst same
      exact (reached start).trans (foldl_above grows rest _)
    · exact ih later _

theorem longerRefill_grows (longest : ℚ) (pair : RateRule × RateRule) : longest <= longerRefill longest pair :=
  le_max_left _ _

theorem longerRefill_reaches (longest : ℚ) (slow full : RateRule) :
  ((max slow.burst full.burst : ℕ) : ℚ) / slow.perSecond <= longerRefill longest (slow, full) :=
  le_max_right _ _

def leastFactor (reduces : Bool) (least : ℚ) : ℚ := if reduces then least else 1

theorem dynamicReduction_least (dynamicOn : Bool) :
  dynamicReduction (some dynamicMin) dynamicOn false = leastFactor dynamicOn dynamicMin := by
  cases dynamicOn <;> norm_num [dynamicReduction, leastFactor, dynamicMin]

theorem capacityReduction_least (capacityOn : Bool) :
  capacityReduction (if capacityOn then dynamicStep else 1) = leastFactor capacityOn dynamicStep := by
  cases capacityOn <;> norm_num [capacityReduction, leastFactor, dynamicStep]

theorem rate_limited (nonempty : rules ≠ []) (free : rateUnlimited grants = []) (dynamic : Option ℚ) (dynamicOn : Bool)
  (capacity : ℚ) : (rate true rules none dynamic dynamicOn grants capacity).limited := by
  have chosen : ¬ (((true || (none : Option (List RuleBase)).isSome) && !((none : Option (List RuleBase)).getD rules).isEmpty)
      = false) := by
    cases rules with
    | nil => exact absurd rfl nonempty
    | cons first rest => simp
  simp only [rate]
  rw [if_neg chosen, if_neg (not_not.mpr free)]

theorem cleanup_reaches {rules : List RuleBase} {dynamicOn capacityOn : Bool} {grantSets : List (List Grant)}
  {grants : List Grant} (mem : grants ∈ grantSets)
  (pure : ∀ grant ∈ grants, (grant.reachesRate && decide (grant.kind = .multiplier)))
  (positive : ∀ base ∈ rules, base.Positive) {base : RuleBase} (chosen : base ∈ rules) :
  ((max (settled (leastFactor dynamicOn dynamicMin) (leastFactor capacityOn dynamicStep) grants base).burst
      (settled 1 1 grants base).burst : ℕ) : ℚ) /
      (settled (leastFactor dynamicOn dynamicMin) (leastFactor capacityOn dynamicStep) grants base).perSecond <=
    cleanupRefillSeconds rules dynamicOn capacityOn grantSets := by
  rcases rateMultipliers_pure pure with ⟨free, same⟩
  have nonempty : rules ≠ [] := ne_nil_of_mem chosen
  have small := @rate_rules true rules none (some dynamicMin) dynamicOn grants (if capacityOn then dynamicStep else 1)
    positive (rate_limited nonempty free _ _ _)
  have large := @rate_rules true rules none none false grants 1 positive (rate_limited nonempty free _ _ _)
  have unreduced : capacityReduction 1 = 1 := if_neg (lt_irrefl 1)
  rw [same, Option.isSome_none, Option.getD_none, dynamicReduction_least, capacityReduction_least] at small
  rw [same, Option.isSome_none, Option.getD_none, unreduced] at large
  refine foldl_reaches (fun longest others => foldl_above longerRefill_grows _ longest) mem (fun longest => ?_) 0
  rw [small, large, zip_map', foldl_map]
  exact @foldl_reaches RuleBase (fun before item => longerRefill before
      (settled (leastFactor dynamicOn dynamicMin) (leastFactor capacityOn dynamicStep) grants item, settled 1 1 grants item))
    (fun before item => longerRefill_grows before _) rules base chosen _
    (longerRefill_reaches · _ _) longest

theorem leastFactor_bounds {reduces : Bool} {least : ℚ} (positive : 0 < least) (small : least <= 1) :
  least <= leastFactor reduces least /\ 0 <= leastFactor reduces least := by
  cases reduces
  · exact ⟨small, zero_le_one⟩
  · exact ⟨le_refl least, positive.le⟩

theorem cleanup_covers {dynamicOn capacityOn : Bool} {grantSets : List (List Grant)} (mem : grants ∈ grantSets)
  (pure : ∀ grant ∈ grants, (grant.reachesRate && decide (grant.kind = .multiplier)))
  (positive : ∀ base ∈ rules, base.Positive) {base : RuleBase} (chosen : base ∈ rules)
  {dynamic capacity : ℚ} (dynamicLeast : leastFactor dynamicOn dynamicMin <= dynamic) (dynamicMost : dynamic <= 1)
  (capacityLeast : leastFactor capacityOn dynamicStep <= capacity) (capacityMost : capacity <= 1) {idle : ℚ}
  (enough : cleanupRefillSeconds rules dynamicOn capacityOn grantSets <= idle) :
  FillsWithin idle (settled dynamic capacity grants base) := by
  have amounts : ∀ grant ∈ grants, 1 <= grant.amount := by
    intro grant inside
    rw [<- (rateMultipliers_pure pure).2] at inside
    exact le_trans (by norm_num) (rateMultipliers_amount inside)
  have amountsNonneg : ∀ grant ∈ grants, 0 <= grant.amount :=
    fun grant inside => zero_le_one.trans (amounts grant inside)
  have covered := (@cleanup_reaches rules dynamicOn capacityOn grantSets grants mem pure positive base chosen).trans enough
  have dynamicBounds : dynamicMin <= leastFactor dynamicOn dynamicMin /\ 0 <= leastFactor dynamicOn dynamicMin :=
    leastFactor_bounds (by norm_num [dynamicMin]) (by norm_num [dynamicMin])
  have capacityBounds : dynamicStep <= leastFactor capacityOn dynamicStep /\ 0 <= leastFactor capacityOn dynamicStep :=
    leastFactor_bounds (by norm_num [dynamicStep]) (by norm_num [dynamicStep])
  have slowRequests := settled_requests_ge amounts (positive base chosen) dynamicBounds.1 capacityBounds.1
  have slowPositive := RateRule.perSecond_pos (lt_of_lt_of_le (by norm_num) slowRequests)
  have faster := (settled_mono amountsNonneg base dynamicBounds.2 capacityBounds.2 dynamicLeast capacityLeast).1
  have smaller := (settled_mono amountsNonneg base (dynamicBounds.2.trans dynamicLeast)
    (capacityBounds.2.trans capacityLeast) dynamicMost capacityMost).2
  have quicker := RateRule.perSecond_mono ((settled_per _ _ grants base).trans (settled_per _ _ grants base).symm) faster
  have idleNonneg : 0 <= idle := le_trans (div_nonneg (Nat.cast_nonneg _) slowPositive.le) covered
  refine ⟨slowPositive.trans_le quicker, ?_⟩
  calc ((settled dynamic capacity grants base).burst : ℚ)
      <= _ := Nat.cast_le.mpr (smaller.trans (le_max_right _ _))
    _ <= _ := (div_le_iff₀ slowPositive).mp covered
    _ <= idle * (settled dynamic capacity grants base).perSecond := mul_le_mul_of_nonneg_left quicker idleNonneg

theorem refill_le_idle {refill : ℚ} (mem : refill ∈ site.refills) : refill <= site.idleSeconds :=
  @foldl_reaches ℚ max (fun longest other => le_max_left longest other) site.refills refill mem refill
    (le_max_right · refill) bucketIdleSeconds

theorem idleSeconds_pos : 0 < site.idleSeconds := by
  have above := foldl_above (fun longest refill : ℚ => le_max_left longest refill) site.refills bucketIdleSeconds
  exact lt_of_lt_of_le (by norm_num [bucketIdleSeconds]) above

theorem quantise_least (factor : ℚ) : dynamicMin <= quantise factor := by
  have clamped : dynamicMin / dynamicStep <= max dynamicMin (min dynamicMax factor) / dynamicStep :=
    div_le_div_of_nonneg_right (le_max_left _ _) (by norm_num [dynamicStep])
  have steps : dynamicMin / dynamicStep = ((10 : ℤ) : ℚ) := by norm_num [dynamicMin, dynamicStep]
  rw [steps] at clamped
  have rounded := roundEven_mono clamped
  rw [roundEven_whole] at rounded
  have product : dynamicMin <= roundEven (max dynamicMin (min dynamicMax factor) / dynamicStep) * dynamicStep := by
    have tenth : (10 : ℚ) <= roundEven (max dynamicMin (min dynamicMax factor) / dynamicStep) := by exact_mod_cast rounded
    have scaledUp := mul_le_mul_of_nonneg_right tenth (show (0 : ℚ) <= dynamicStep by norm_num [dynamicStep])
    exact le_trans (by norm_num [dynamicMin, dynamicStep]) scaledUp
  have kept := roundDecimals_mono 2 product
  rwa [roundDecimals_exact 2 50 (by norm_num [dynamicMin])] at kept

theorem capacityFactor_least {model : CatalogRow} {report : Option Capacity} (some : 0 < site.capacityFactor model report) :
  dynamicStep <= site.capacityFactor model report := by
  unfold capacityFactor at some ⊢
  split
  · norm_num [dynamicStep]
  · rename_i registered
    rw [if_neg registered] at some
    split
    · norm_num [dynamicStep]
    · split
      · norm_num [dynamicStep]
      · rename_i capacity least found
        simp only [found] at some
        dsimp only
        generalize roundEven (min 1 (max 0 (min 1 least) / capacityComfort) / dynamicStep) = steps at some ⊢
        have one : 1 <= steps := by
          by_contra none
          have product : (steps : ℚ) * dynamicStep <= 0 := by
            refine mul_nonpos_of_nonpos_of_nonneg ?_ (by norm_num [dynamicStep])
            exact_mod_cast (show steps <= 0 by omega)
          have kept := roundDecimals_mono 2 product
          rw [@roundDecimals_exact 2 0 0 (by norm_num)] at kept
          exact absurd some kept.not_gt
        have product : dynamicStep <= steps * dynamicStep :=
          le_mul_of_one_le_left (by norm_num [dynamicStep]) (by exact_mod_cast one)
        have kept := roundDecimals_mono 2 product
        rwa [roundDecimals_exact 2 5 (by norm_num [dynamicStep])] at kept

theorem dynamicReduction_bounds {dynamic : Option ℚ} {dynamicOn custom allowed : Bool}
  (least : ∀ factor, dynamic = some factor -> dynamicMin <= factor)
  (expected : ∀ factor, dynamic = some factor -> dynamicOn -> custom = false -> allowed) :
  leastFactor allowed dynamicMin <= dynamicReduction dynamic dynamicOn custom /\
    dynamicReduction dynamic dynamicOn custom <= 1 := by
  have belowOne : leastFactor allowed dynamicMin <= 1 := by
    cases allowed <;> norm_num [leastFactor, dynamicMin]
  unfold dynamicReduction
  cases dynamic with
  | none => exact ⟨belowOne, le_refl 1⟩
  | some factor =>
    dsimp only
    split
    · rename_i reduces
      rw [expected factor rfl reduces.1 reduces.2.1]
      exact ⟨least factor rfl, reduces.2.2.le⟩
    · exact ⟨belowOne, le_refl 1⟩

theorem capacityReduction_bounds {capacity : ℚ} {allowed : Bool} (least : dynamicStep <= capacity)
  (expected : capacity < 1 -> allowed) :
  leastFactor allowed dynamicStep <= capacityReduction capacity /\ capacityReduction capacity <= 1 := by
  unfold capacityReduction
  split
  · rename_i reduces
    rw [expected reduces]
    exact ⟨least.trans (le_max_left _ _), max_le reduces.le (by norm_num)⟩
  · exact ⟨by cases allowed <;> norm_num [leastFactor, dynamicStep], le_refl 1⟩

theorem checkedRules_positive (rules : CheckedRules) : ∀ base ∈ rules.val, base.Positive := by
  rcases rules.property with ⟨_, checked⟩
  exact validateRules_positive checked

theorem rulesColumn_refill {column : RulesText} (read : rulesColumn column = some rules) (capacity : Bool)
  (pool : Option Pool) (modelId : Option ℕ) (userId : ℕ) :
  cleanupRefillSeconds rules false capacity (cleanupGrantSets site.cleanupGrants pool modelId (some userId)) ∈
    site.customRefill column capacity pool modelId userId := by
  unfold rulesColumn at read
  split at read
  · rename_i raw
    rcases Option.bind_eq_some_iff.mp read with ⟨_, checked, kept⟩
    split at kept
    · cases kept
    · cases kept
      simp [customRefill, checked]
  · cases read

theorem ownGrants_pure (pool : Option Pool) (modelId : Option ℕ) (userId : ℕ) : ∀ grant,
  grant ∈ (site.cleanupGrants.filter (applies pool modelId)).filter (Grant.isFor userId) ->
    (grant.reachesRate && decide (grant.kind = .multiplier)) :=
  fun _ mem => (mem_filter.mp (mem_filter.mp (mem_filter.mp mem).1).1).2

theorem overrideRules_row {userId : ℕ} {pool : Pool} (found : site.overrideRules userId pool = some rules) :
  ∃ row ∈ site.overrides, row.userId = userId /\ row.pool = pool /\ rulesColumn row.rateRules = some rules := by
  rcases Option.bind_eq_some_iff.mp found with ⟨row, first, read⟩
  have matched := find?_some first
  rw [decide_eq_true_eq] at matched
  exact ⟨row, mem_of_find?_eq_some first, matched.1, matched.2, read⟩

theorem modelOverrideRules_row {userId modelId : ℕ} (found : site.modelOverrideRules userId modelId = some rules) :
  ∃ row ∈ site.modelOverrides, row.userId = userId /\ row.modelId = modelId /\
    rulesColumn row.rateRules = some rules := by
  rcases Option.bind_eq_some_iff.mp found with ⟨row, first, read⟩
  have matched := find?_some first
  rw [decide_eq_true_eq] at matched
  exact ⟨row, mem_of_find?_eq_some first, matched.1, matched.2, read⟩

theorem rateLimit_fills {userId : ℕ} {pool : Pool} {demand : ℚ}
  (limited : (site.rateLimit userId pool demand).limited) :
  ∀ rule ∈ (site.rateLimit userId pool demand).rules, FillsWithin site.idleSeconds rule := by
  unfold rateLimit at limited ⊢
  split at limited
  · cases limited
  rename_i notAdmin
  rw [if_neg notAdmin]
  split at limited
  · cases limited
  rename_i notExempt
  rw [if_neg notExempt]
  dsimp only at limited ⊢
  generalize chosen : (if ((site.poolPolicy pool).enabled && (site.poolPolicy pool).dynamic &&
    !(site.overrideRules userId pool).isSome && !site.dynamicExempt userId) = true then some (quantise demand) else none) =
      dynamic at limited ⊢
  have least : ∀ factor, dynamic = some factor -> dynamicMin <= factor := by
    intro _ given
    rw [given] at chosen
    split at chosen
    · cases chosen
      exact quantise_least demand
    · cases chosen
  have full : leastFactor false dynamicStep <= capacityReduction 1 /\ capacityReduction 1 <= 1 :=
    capacityReduction_bounds (by norm_num [dynamicStep]) (fun less => absurd less (lt_irrefl 1))
  cases custom : site.overrideRules userId pool with
  | none =>
    rw [custom] at limited
    rw [rate_rules (checkedRules_positive _) limited, poolMultipliers_eq]
    have bounds := @dynamicReduction_bounds dynamic (site.poolPolicy pool).dynamic false
      (site.poolPolicy pool).dynamic least (fun _ _ adjusts _ => adjusts)
    intro rule mem
    rcases mem_map.mp mem with ⟨base, inside, rfl⟩
    refine cleanup_covers (site.ownGrants_mem (some pool) none userId).2 (site.ownGrants_pure _ _ _)
      (checkedRules_positive _) inside bounds.1 bounds.2 full.1 full.2 (site.refill_le_idle ?_)
    refine mem_append_left _ (mem_append_left _ (mem_append_left _ (mem_map.mpr ⟨pool, ?_, rfl⟩)))
    cases pool <;> simp
  | some rules =>
    rcases site.overrideRules_row custom with ⟨row, stored, ownerOf, poolOf, read⟩
    rw [custom] at limited
    rw [rate_rules (rulesColumn_positive read) limited, poolMultipliers_eq]
    have bounds := @dynamicReduction_bounds dynamic (site.poolPolicy pool).dynamic true false least
      (fun _ _ _ clash => absurd clash (by decide))
    intro _ mem
    rcases mem_map.mp mem with ⟨_, inside, rfl⟩
    refine cleanup_covers (site.ownGrants_mem (some pool) none userId).1 (site.ownGrants_pure _ _ _)
      (rulesColumn_positive read) inside bounds.1 bounds.2 full.1 full.2 (site.refill_le_idle ?_)
    refine mem_append_left _ (mem_append_right _ (mem_flatMap.mpr ⟨row, stored, ?_⟩))
    rw [ownerOf, poolOf]
    exact site.rulesColumn_refill read false (some pool) none userId

theorem modelRate_fills {userId modelId : ℕ} {model : CatalogRow} {demand : ℚ} {report : Option Capacity}
  (listed : site.models.find? (·.id = modelId) = some model)
  (left : 0 < site.capacityFactor model report)
  (limited : (site.modelRate userId model demand (site.capacityFactor model report)).limited) :
  ∀ rule ∈ (site.modelRate userId model demand (site.capacityFactor model report)).rules,
    FillsWithin site.idleSeconds rule := by
  have identity := find?_some listed
  rw [decide_eq_true_eq] at identity
  have row := mem_of_find?_eq_some listed
  have reported : site.capacityFactor model report < 1 -> site.hasReport model := by
    intro less
    by_contra silent
    have unregistered : model.provider ∉ site.capacityProviders := fun registered => silent (decide_eq_true registered)
    unfold capacityFactor at less
    rw [if_pos unregistered] at less
    exact lt_irrefl 1 less
  have capacityOf : site.capacityOf model.id = site.hasReport model := by
    rw [Site.capacityOf, identity, listed]
    rfl
  have capacities := @capacityReduction_bounds (site.capacityFactor model report) (site.hasReport model)
    (site.capacityFactor_least left) reported
  unfold modelRate at limited ⊢
  dsimp only at limited ⊢
  split at limited
  swap
  · cases limited
  rename_i counted
  rw [if_pos counted]
  generalize chosen : (if ((site.modelPolicy model.id).enabled && (site.modelPolicy model.id).dynamic &&
    !site.dynamicExempt userId) = true then some (scaled (quantise demand) (site.modelPolicy model.id).sensitivity)
      else none) = dynamic at limited ⊢
  have least : ∀ factor, dynamic = some factor -> dynamicMin <= factor := by
    intro factor given
    rw [given] at chosen
    split at chosen
    · cases chosen
      exact quantise_least _
    · cases chosen
  have adjusts : ∀ factor, dynamic = some factor -> (site.modelPolicy model.id).dynamic := by
    intro factor given
    rw [given] at chosen
    split at chosen
    · rename_i on
      simp only [Bool.and_eq_true] at on
      exact on.1.2
    · cases chosen
  cases custom : site.modelOverrideRules userId model.id with
  | none =>
    rw [custom] at limited
    rw [rate_rules (checkedRules_positive _) limited, site.modelMultipliers_eq userId model.id none]
    have bounds := @dynamicReduction_bounds dynamic true false (site.modelPolicy model.id).dynamic least
      (fun factor given _ _ => adjusts factor given)
    intro rule mem
    rcases mem_map.mp mem with ⟨base, inside, rfl⟩
    refine cleanup_covers (site.ownGrants_mem none (some model.id) userId).2 (site.ownGrants_pure _ _ _)
      (checkedRules_positive _) inside bounds.1 bounds.2 capacities.1 capacities.2 (site.refill_le_idle ?_)
    exact mem_append_left _ (mem_append_left _ (mem_append_right _ (mem_map.mpr ⟨model, row, rfl⟩)))
  | some rules =>
    rcases site.modelOverrideRules_row custom with ⟨override, stored, ownerOf, modelOf, read⟩
    rw [custom] at limited
    rw [rate_rules (rulesColumn_positive read) limited, site.modelMultipliers_eq userId model.id none]
    have bounds := @dynamicReduction_bounds dynamic true true false least
      (fun _ _ _ clash => absurd clash (by decide))
    intro _ mem
    rcases mem_map.mp mem with ⟨_, inside, rfl⟩
    refine cleanup_covers (site.ownGrants_mem none (some model.id) userId).1 (site.ownGrants_pure _ _ _)
      (rulesColumn_positive read) inside bounds.1 bounds.2 capacities.1 capacities.2 (site.refill_le_idle ?_)
    refine mem_append_right _ (mem_flatMap.mpr ⟨override, stored, ?_⟩)
    rw [ownerOf, modelOf, capacityOf]
    exact site.rulesColumn_refill read (site.hasReport model) none (some model.id) userId

end Site

end BananaChat.Limits
