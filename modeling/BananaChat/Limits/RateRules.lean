import Mathlib.Data.List.Sort
import BananaChat.Foundation.Rounding
import BananaChat.Limits.RateBuckets
import BananaChat.Limits.Windows

namespace BananaChat.Limits

open Foundation List Nat

/-!
# The rates in force

The rules of a request rate come from a policy or, for one account, from an override.
-/

/-- The burst of a stored rule: left out, a number, or anything else. -/
inductive RawBurst
  | unset
  | number (value : ℚ)
  | unreadable

/-- A stored rule as it is read.  What is no number, or no unit, is `none`. -/
structure RawRule where
  requests : Option ℚ
  per : Option Per
  burst : RawBurst

def requestsMax : ℕ := 1000000
def burstMax : ℕ := 1000000
def rulesMax : ℕ := 4

/-- `_number` for a whole number from one on. -/
def wholeNumber (maximum : ℕ) (value : ℚ) : Option ℕ :=
  if 1 <= value /\ value <= maximum /\ value = ⌊value⌋ then some ⌊value⌋.toNat else none

def validateRule (raw : RawRule) : Option RuleBase :=
  raw.per.bind fun per => (raw.requests.bind (wholeNumber requestsMax)).bind fun requests =>
    match raw.burst with
    | .unset => some ⟨requests, per, requests⟩
    | .number value => (wholeNumber burstMax value).map fun burst => ⟨requests, per, burst⟩
    | .unreadable => none

/-- `validate_rules`; `none` is its `ValueError`. -/
def validateRules (raw : List RawRule) : Option (List RuleBase) :=
  match raw.mapM validateRule with
  | none => none
  | some clean =>
    if clean.length <= rulesMax /\ (clean.map RuleBase.per).Nodup then
      some (clean.mergeSort fun first second => first.per.seconds <= second.per.seconds)
    else none

/-- Rules that `validate_rules` returned. -/
def CheckedRules : Type := { rules : List RuleBase // ∃ raw, validateRules raw = some rules }

/-- A column of custom rules: `NULL`, a text that is no list, or a list. -/
abbrev RulesText := Option (Option (List RawRule))

def rulesColumn (column : RulesText) : Option (List RuleBase) :=
  match column with
  | some (some raw) => (validateRules raw).bind fun rules => if rules = [] then none else some rules
  | _ => none

def RuleBase.Positive (rule : RuleBase) : Prop := 1 <= rule.requests /\ 1 <= rule.burst

theorem wholeNumber_pos {maximum : ℕ} {value : ℚ} {whole : ℕ} (read : wholeNumber maximum value = some whole) :
  1 <= whole := by
  unfold wholeNumber at read
  split at read
  · rename_i range
    cases read
    have least : (1 : ℤ) <= ⌊value⌋ := Int.le_floor.mpr (by exact_mod_cast range.1)
    omega
  · cases read

theorem validateRule_positive {raw : RawRule} {rule : RuleBase} (checked : validateRule raw = some rule) :
  rule.Positive := by
  rcases Option.bind_eq_some_iff.mp checked with ⟨_, _, rest⟩
  rcases Option.bind_eq_some_iff.mp rest with ⟨_, read, settledBurst⟩
  rcases Option.bind_eq_some_iff.mp read with ⟨value, _, whole⟩
  have enough := wholeNumber_pos whole
  cases burst : raw.burst with
  | unset =>
    rw [burst] at settledBurst
    cases settledBurst
    exact ⟨enough, enough⟩
  | number value =>
    rw [burst] at settledBurst
    rcases Option.map_eq_some_iff.mp settledBurst with ⟨_, readBurst, rfl⟩
    exact ⟨enough, wholeNumber_pos readBurst⟩
  | unreadable =>
    rw [burst] at settledBurst
    cases settledBurst

theorem mapM_positive {raw : List RawRule} {clean : List RuleBase} (checked : raw.mapM validateRule = some clean) :
  ∀ rule ∈ clean, rule.Positive := by
  induction raw generalizing clean with
  | nil =>
    cases checked
    exact fun rule mem => absurd mem not_mem_nil
  | cons head rest ih =>
    rw [mapM_cons] at checked
    rcases Option.bind_eq_some_iff.mp checked with ⟨_, headChecked, others⟩
    rcases Option.bind_eq_some_iff.mp others with ⟨_, restChecked, joined⟩
    cases joined
    intro rule mem
    rcases mem_cons.mp mem with same | later
    · exact same ▸ validateRule_positive headChecked
    · exact ih restChecked rule later

theorem validateRules_positive {raw : List RawRule} {rules : List RuleBase} (checked : validateRules raw = some rules) :
  ∀ rule ∈ rules, rule.Positive := by
  unfold validateRules at checked
  split at checked
  · cases checked
  · rename_i clean read
    split at checked
    · cases checked
      exact fun rule mem => mapM_positive read rule (mem_mergeSort.mp mem)
    · cases checked

theorem rulesColumn_positive {column : RulesText} {rules : List RuleBase} (read : rulesColumn column = some rules) :
  ∀ rule ∈ rules, rule.Positive := by
  unfold rulesColumn at read
  split at read
  · rename_i raw
    rcases Option.bind_eq_some_iff.mp read with ⟨_, checked, kept⟩
    split at kept
    · cases kept
    · cases kept
      exact validateRules_positive checked
  · cases read

inductive GrantKind
  | unlimited
  | multiplier
  | extra
deriving DecidableEq

/-- `SCOPES`: what a grant is limited to. -/
inductive GrantScope
  | rate
  | window
  | weekly
deriving DecidableEq

def multiplierMax : ℚ := 100

/-- A row of `limit_grants`.  A missing account, pool, model or scope means all of them.
The amount of a multiplier is what `validate_grant` lets in. -/
structure Grant where
  id : ℕ
  userId : Option ℕ
  pool : Option Pool
  modelId : Option ℕ
  scope : Option GrantScope
  kind : GrantKind
  amount : ℚ
  multiplies : kind = .multiplier -> 101 / 100 <= amount /\ amount <= multiplierMax

/-- Whether a grant reaches the request rate (`_grant_parts` with the scope `rate`). -/
def Grant.reachesRate (grant : Grant) : Bool := grant.scope = none || grant.scope = some .rate

def Grant.isFor (userId : ℕ) (grant : Grant) : Bool := grant.userId = none || grant.userId = some userId

def Grant.forPool (pool : Pool) (grant : Grant) : Bool :=
  grant.modelId = none && (grant.pool = none || grant.pool = some pool)

/-- Whether a grant changes the limits of a model (`_for_model`). -/
def Grant.forModel (modelId : ℕ) (grant : Grant) : Bool :=
  grant.modelId = some modelId || (grant.modelId = none && grant.pool = none && grant.kind = .unlimited)

def rateUnlimited (grants : List Grant) : List Grant :=
  grants.filter (fun grant => grant.reachesRate && (grant.kind = .unlimited))

def rateMultipliers (grants : List Grant) : List Grant :=
  grants.filter (fun grant => grant.reachesRate && (grant.kind = .multiplier))

theorem rateMultipliers_amount {grants : List Grant} {grant : Grant} (mem : grant ∈ rateMultipliers grants) :
  101 / 100 <= grant.amount := by
  have kind := (mem_filter.mp mem).2
  rw [Bool.and_eq_true, decide_eq_true_eq] at kind
  exact (grant.multiplies kind.2).1

def dynamicMin : ℚ := 1 / 2
def dynamicMax : ℚ := 2
def dynamicStep : ℚ := 1 / 20

def quantise (factor : ℚ) : ℚ :=
  let clamped := max dynamicMin (min dynamicMax factor)
  roundDecimals 2 (roundEven (clamped / dynamicStep) * dynamicStep)

def scaled (multiplier sensitivity : ℚ) : ℚ := quantise (1 + (multiplier - 1) * sensitivity)

/-- A rule as configured (`_rules`). -/
def RuleBase.rule (base : RuleBase) : RateRule := ⟨base.requests, base.per, base.burst, some base⟩

/-- One rule of `_scaled_rules`. -/
def scaledRule (factor : ℚ) (growBurst : Bool) (rule : RateRule) : RateRule :=
  { requests := roundDecimals 4 (rule.requests * factor)
    per := rule.per
    burst := if growBurst then max rule.burst ⌈rule.burst * factor⌉₊ else max 1 ⌊rule.burst * factor⌋₊
    base := rule.base }

def scaledRules (rules : List RateRule) (factor : ℚ) (growBurst : Bool) : List RateRule :=
  rules.map (scaledRule factor growBurst)

/-- The step of `_rate` for the load of the site.  Rates are never raised automatically, and
custom rates are never reduced. -/
def dynamicRules (rules : List RateRule) (dynamic : Option ℚ) (dynamicOn custom : Bool) : List RateRule :=
  match dynamic with
  | some factor => if dynamicOn = true /\ custom = false /\ factor < 1 then scaledRules rules factor false else rules
  | none => rules

/-- The step of `_rate` for the capacity of the provider. -/
def capacityRules (rules : List RateRule) (capacity : ℚ) : List RateRule :=
  if capacity < 1 then scaledRules rules (max capacity (1 / 10000)) false else rules

def rate (enabled : Bool) (baseRules : List RuleBase) (customRules : Option (List RuleBase)) (dynamic : Option ℚ)
  (dynamicOn : Bool) (grants : List Grant) (capacity : ℚ) : RateLimit :=
  let custom := customRules.isSome
  let chosen := customRules.getD baseRules
  let rules := chosen.map RuleBase.rule
  if ((enabled || custom) && !chosen.isEmpty) = false then ⟨false, rules⟩
  else
    let rules := capacityRules (dynamicRules rules dynamic dynamicOn custom) capacity
    if rateUnlimited grants ≠ [] then ⟨false, rules⟩
    else ⟨true, (rateMultipliers grants).foldl (fun rules grant => scaledRules rules grant.amount true) rules⟩

def grown (multipliers : List Grant) (rule : RateRule) : RateRule :=
  multipliers.foldl (fun rule grant => scaledRule grant.amount true rule) rule

def settled (dynamic capacity : ℚ) (multipliers : List Grant) (base : RuleBase) : RateRule :=
  grown multipliers (scaledRule capacity false (scaledRule dynamic false base.rule))

def dynamicReduction (dynamic : Option ℚ) (dynamicOn custom : Bool) : ℚ :=
  match dynamic with
  | some factor => if dynamicOn = true /\ custom = false /\ factor < 1 then factor else 1
  | none => 1

def capacityReduction (capacity : ℚ) : ℚ := if capacity < 1 then max capacity (1 / 10000) else 1

def RateRule.Settled (rule : RateRule) : Prop := roundDecimals 4 rule.requests = rule.requests /\ 1 <= rule.burst

theorem RuleBase.rule_settled {base : RuleBase} (positive : base.Positive) : base.rule.Settled :=
  ⟨roundDecimals_natCast 4 base.requests, positive.2⟩

variable {growBurst : Bool} {rules : List RateRule} {factor : ℚ} {large small : RateRule} {multipliers : List Grant}

theorem scaledRule_settled (factor : ℚ) {rule : RateRule} (settledRule : rule.Settled) :
  (scaledRule factor growBurst rule).Settled := by
  refine ⟨roundDecimals_roundDecimals 4 _, ?_⟩
  cases growBurst with
  | true => exact settledRule.2.trans (le_max_left _ _)
  | false => exact le_max_left _ _

theorem scaledRule_one {rule : RateRule} (settledRule : rule.Settled) : scaledRule 1 false rule = rule := by
  have requests : roundDecimals 4 (rule.requests * 1) = rule.requests := by
    rw [mul_one]
    exact settledRule.1
  have burst : max 1 ⌊(rule.burst : ℚ) * 1⌋₊ = rule.burst := by
    rw [mul_one, floor_natCast]
    exact max_eq_right settledRule.2
  unfold scaledRule
  rw [requests, if_neg Bool.false_ne_true, burst]

theorem map_scaledRule_one (settledRules : ∀ rule ∈ rules, rule.Settled) : scaledRules rules 1 false = rules := by
  conv_rhs => rw [<- map_id rules]
  exact map_congr_left fun rule mem => scaledRule_one (settledRules rule mem)

theorem foldl_scaledRules (multipliers : List Grant) (rules : List RateRule) :
  multipliers.foldl (fun rules grant => scaledRules rules grant.amount true) rules = rules.map (grown multipliers) := by
  induction multipliers generalizing rules with
  | nil => exact (map_id rules).symm
  | cons grant rest ih =>
    rw [foldl_cons, ih, scaledRules, map_map]
    rfl

theorem dynamicRules_eq (settledRules : ∀ rule ∈ rules, rule.Settled) (dynamic : Option ℚ) (dynamicOn custom : Bool) :
  dynamicRules rules dynamic dynamicOn custom = scaledRules rules (dynamicReduction dynamic dynamicOn custom) false := by
  unfold dynamicRules dynamicReduction
  cases dynamic with
  | none => exact (map_scaledRule_one settledRules).symm
  | some factor =>
    dsimp only
    split
    · rfl
    · exact (map_scaledRule_one settledRules).symm

theorem capacityRules_eq (settledRules : ∀ rule ∈ rules, rule.Settled) (capacity : ℚ) :
  capacityRules rules capacity = scaledRules rules (capacityReduction capacity) false := by
  unfold capacityRules capacityReduction
  split
  · rfl
  · exact (map_scaledRule_one settledRules).symm

theorem rate_rules {enabled : Bool} {baseRules : List RuleBase} {customRules : Option (List RuleBase)}
  {dynamic : Option ℚ} {dynamicOn : Bool} {grants : List Grant} {capacity : ℚ}
  (positive : ∀ base ∈ customRules.getD baseRules, base.Positive)
  (limited : (rate enabled baseRules customRules dynamic dynamicOn grants capacity).limited) :
  (rate enabled baseRules customRules dynamic dynamicOn grants capacity).rules =
    (customRules.getD baseRules).map (settled (dynamicReduction dynamic dynamicOn customRules.isSome)
      (capacityReduction capacity) (rateMultipliers grants)) := by
  have plain : ∀ rule ∈ (customRules.getD baseRules).map RuleBase.rule, rule.Settled := by
    intro rule mem
    rcases mem_map.mp mem with ⟨base, chosen, rfl⟩
    exact RuleBase.rule_settled (positive base chosen)
  have stillSettled : ∀ rule, rule ∈ scaledRules ((customRules.getD baseRules).map RuleBase.rule)
      (dynamicReduction dynamic dynamicOn customRules.isSome) false -> rule.Settled := by
    intro _ mem
    rcases mem_map.mp mem with ⟨before, inside, rfl⟩
    exact scaledRule_settled _ (plain before inside)
  simp only [rate, dynamicRules_eq plain, capacityRules_eq stillSettled] at limited ⊢
  by_cases off : ((enabled || customRules.isSome) && !(customRules.getD baseRules).isEmpty) = false
  · rw [if_pos off] at limited
    cases limited
  · rw [if_neg off] at limited ⊢
    by_cases free : rateUnlimited grants ≠ []
    · rw [if_pos free] at limited
      cases limited
    · rw [if_neg free, foldl_scaledRules, scaledRules, scaledRules, map_map, map_map, map_map]
      rfl

theorem scaledRule_requests_le {greater : ℚ} (below : small.requests <= large.requests) (factors : factor <= greater)
  (nonneg : 0 <= small.requests) (factorNonneg : 0 <= factor) :
  (scaledRule factor growBurst small).requests <= (scaledRule greater growBurst large).requests :=
  roundDecimals_mono 4 (mul_le_mul below factors factorNonneg (nonneg.trans below))

theorem scaledRule_burst_le {greater : ℚ} (below : small.burst <= large.burst) (factors : factor <= greater)
  (factorNonneg : 0 <= factor) :
  (scaledRule factor growBurst small).burst <= (scaledRule greater growBurst large).burst := by
  have product : (small.burst : ℚ) * factor <= large.burst * greater :=
    mul_le_mul (cast_le.mpr below) factors factorNonneg (cast_nonneg _)
  cases growBurst with
  | true => exact max_le_max below (ceil_mono product)
  | false => exact max_le_max (le_refl 1) (floor_mono product)

theorem scaledRule_requests_nonneg {rule : RateRule} (nonneg : 0 <= rule.requests) (factorNonneg : 0 <= factor) :
  0 <= (scaledRule factor growBurst rule).requests := by
  have zero := roundDecimals_mono 4 (mul_nonneg nonneg factorNonneg)
  rwa [<- cast_zero, roundDecimals_natCast] at zero

theorem grown_le (amounts : ∀ grant ∈ multipliers, 0 <= grant.amount) (nonneg : 0 <= small.requests)
  (requests : small.requests <= large.requests) (burst : small.burst <= large.burst) :
  (grown multipliers small).requests <= (grown multipliers large).requests /\
    (grown multipliers small).burst <= (grown multipliers large).burst := by
  induction multipliers generalizing small large with
  | nil => exact ⟨requests, burst⟩
  | cons grant rest ih =>
    have amount := amounts grant mem_cons_self
    exact ih (fun other mem => amounts other (.tail _ mem))
      (scaledRule_requests_nonneg nonneg amount) (scaledRule_requests_le requests (le_refl _) nonneg amount)
      (scaledRule_burst_le burst (le_refl _) amount)

theorem settled_mono (amounts : ∀ grant ∈ multipliers, 0 <= grant.amount) (base : RuleBase)
  {dynamic dynamic' capacity capacity' : ℚ} (dynamicNonneg : 0 <= dynamic) (capacityNonneg : 0 <= capacity)
  (dynamics : dynamic <= dynamic') (capacities : capacity <= capacity') :
  (settled dynamic capacity multipliers base).requests <= (settled dynamic' capacity' multipliers base).requests /\
    (settled dynamic capacity multipliers base).burst <= (settled dynamic' capacity' multipliers base).burst := by
  have start : 0 <= base.rule.requests := cast_nonneg _
  have once : 0 <= (scaledRule dynamic false base.rule).requests := scaledRule_requests_nonneg start dynamicNonneg
  refine grown_le amounts (scaledRule_requests_nonneg once capacityNonneg) ?_ ?_
  · exact scaledRule_requests_le (scaledRule_requests_le (le_refl _) dynamics start dynamicNonneg) capacities once
      capacityNonneg
  · exact scaledRule_burst_le (scaledRule_burst_le (le_refl _) dynamics dynamicNonneg) capacities capacityNonneg

@[simp] theorem grown_per (multipliers : List Grant) (rule : RateRule) : (grown multipliers rule).per = rule.per := by
  induction multipliers generalizing rule with
  | nil => rfl
  | cons grant rest ih => exact ih _

@[simp] theorem settled_per (dynamic capacity : ℚ) (multipliers : List Grant) (base : RuleBase) :
    (settled dynamic capacity multipliers base).per = base.per :=
  grown_per multipliers _

theorem grown_requests_ge (amounts : ∀ grant ∈ multipliers, 1 <= grant.amount) {rule : RateRule}
  (enough : 1 / 40 <= rule.requests) : 1 / 40 <= (grown multipliers rule).requests := by
  induction multipliers generalizing rule with
  | nil => exact enough
  | cons grant rest ih =>
    refine ih (fun other mem => amounts other (.tail _ mem)) ?_
    have amount := amounts grant mem_cons_self
    have product : 1 / 40 <= rule.requests * grant.amount := by
      have grows := le_mul_of_one_le_right (le_trans (by norm_num) enough) amount
      exact enough.trans grows
    have kept := roundDecimals_mono 4 product
    rwa [roundDecimals_exact 4 250 (by norm_num)] at kept

theorem settled_requests_ge (amounts : ∀ grant ∈ multipliers, 1 <= grant.amount) {base : RuleBase}
  (positive : base.Positive) {dynamic capacity : ℚ} (dynamicLeast : dynamicMin <= dynamic)
  (capacityLeast : dynamicStep <= capacity) : 1 / 40 <= (settled dynamic capacity multipliers base).requests := by
  refine grown_requests_ge amounts ?_
  have start : (1 : ℚ) <= base.rule.requests := one_le_cast.mpr positive.1
  have half : 1 / 2 <= (scaledRule dynamic false base.rule).requests := by
    have product : 1 * (1 / 2) <= base.rule.requests * dynamic :=
      mul_le_mul start dynamicLeast (by norm_num) (le_trans (by norm_num) start)
    have kept := roundDecimals_mono 4 product
    rwa [roundDecimals_exact 4 5000 (by norm_num), one_mul] at kept
  have product : 1 / 2 * (1 / 20) <= (scaledRule dynamic false base.rule).requests * capacity :=
    mul_le_mul half capacityLeast (by norm_num) (le_trans (by norm_num) half)
  have kept := roundDecimals_mono 4 product
  rw [roundDecimals_exact 4 250 (by norm_num)] at kept
  exact le_trans (by norm_num) kept

theorem RateRule.perSecond_mono {slow fast : RateRule} (units : slow.per = fast.per)
  (requests : slow.requests <= fast.requests) : slow.perSecond <= fast.perSecond := by
  unfold RateRule.perSecond
  rw [units]
  exact div_le_div_of_nonneg_right requests (cast_nonneg _)

theorem RateRule.perSecond_pos {rule : RateRule} (requests : 0 < rule.requests) : 0 < rule.perSecond := by
  refine div_pos requests (cast_pos.mpr ?_)
  cases rule.per <;> norm_num [Per.seconds]

end BananaChat.Limits
