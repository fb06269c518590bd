import BananaChat.Allowances.Effective

namespace BananaChat.Allowances

open Foundation Limits Credits

/-!
# The limits of one model

A model has limits of its own, which every pool shares.  They shrink further when its
provider runs out of capacity.
-/

/-- `capacity_factor`, from the report of the model's provider.  No report, or one that fails, says nothing. -/
def capacityFactor (report : Option Limits.Site.Capacity) : ℚ :=
  match report with
  | none => 1
  | some capacity =>
    match ([capacity.windowLeft, capacity.weeklyLeft].filterMap id).min? with
    | none => 1
    | some least =>
      let fraction := max 0 (min 1 least)
      roundDecimals 2 (roundEven (min 1 (fraction / Limits.Site.capacityComfort) / dynamicStep) * dynamicStep)

/-- The ledger rows `model_usage` reads. -/
def modelRows (ledger : List Credits.LedgerRow) (userId modelId : ℕ) (earliest : ℤ) : List Credits.LedgerRow :=
  ledger.filter (fun row => (row.userId = userId /\ row.modelId = some modelId /\ earliest <= row.createdAt) &&
    row.consumesLimits)

/-- `model_usage`: the raw tokens of one model since its windows opened, with its pending reservations. -/
def modelUsage (ledger : List Credits.LedgerRow) (reservations : List Credits.Reservation) (userId modelId : ℕ)
  (windowSince weeklySince : Option ℤ) : ℚ × ℚ :=
  let rows := modelRows ledger userId modelId ([windowSince, weeklySince].reduceOption.min?.getD never)
  let since (start : Option ℤ) : ℚ :=
    ((rows.map fun row => if start.getD never <= row.createdAt then row.tokensIn + row.tokensOut else 0).sum : ℕ)
  let reserved := ((reservations.filter fun row => row.userId = userId /\ row.modelId = some modelId).map
    Credits.Reservation.creditsReserved).sum * tokensPerCredit
  (since windowSince + reserved, since weeklySince + reserved)

structure ModelLimits where
  modelId : ℕ
  name : String
  admin : Bool
  weight : ℚ
  countsTowardPool : Bool
  locked : Bool
  rate : RateLimit
  window : Window
  weekly : Window
  custom : Bool
  dynamic : ℚ
  capacity : ℚ

def ModelLimits.period (limits : ModelLimits) : Period -> Window
  | .window => limits.window
  | .weekly => limits.weekly

namespace Site

variable (site : Site) (now : ℚ)

section

variable (userId modelId : ℕ)

def modelTokensEnabled : Bool :=
  (site.modelRules modelId).tokensEnabled &&
    !((site.preferences userId).tokenExempt || (site.modelOverride userId modelId).tokenExempt)

def modelRateEnabled : Bool :=
  (site.modelRules modelId).rateEnabled &&
    !((site.preferences userId).rateExempt || (site.modelOverride userId modelId).rateExempt)

def modelTier : Option Tier :=
  if (site.modelRules modelId).autoTiers && (site.modelRules modelId).enabled then
    resolveTier (site.preferences userId).tierId site.tiers
  else none

def modelDynamic : Option ℚ :=
  let policy := site.modelRules modelId
  if policy.enabled && policy.dynamic && !(site.preferences userId).dynamicExempt then
    some (scaled (site.dynamicFor userId) policy.sensitivity)
  else none

/-- What `model_limits` passes to `_window` for a period. -/
def modelTerms (period : Period) : WindowTerms :=
  let starts := starts site.windows userId (.model modelId) (site.resets userId) now
  let used := modelUsage site.ledger site.reservations userId modelId starts.windowSince starts.weekSince
  { tier := site.modelTier userId modelId
    dynamic := site.modelDynamic userId modelId
    dynamicOn := true
    bonus := .none
    grants := site.modelGrants userId modelId ⌊now⌋
    started := match period with | .window => starts.windowStart | .weekly => starts.weekStart
    used := roundDecimals 2 (match period with | .window => used.1 | .weekly => used.2)
    length := period.seconds
    limitedOverride := if site.modelTokensEnabled userId modelId then none else some false
    capacity := capacityFactor (site.report modelId)
    renounced := site.renounced userId ⌊now⌋ none (some modelId) period }

def modelWindow (period : Period) : Window :=
  let policy := site.modelRules modelId
  window period (policy.enabled && (policy.tokens period).isSome) ((policy.tokens period).getD 0) policy.autoTiers
    (((site.modelOverride userId modelId).tokens period).map fun value : ℕ => (value : ℚ))
    (site.modelTerms now userId modelId period)

def modelRate : RateLimit :=
  let policy := site.modelRules modelId
  if site.modelRateEnabled userId modelId then
    rate policy.enabled policy.rateRules.val (site.modelOverride userId modelId).rules (site.modelDynamic userId modelId) true
      (site.modelGrants userId modelId ⌊now⌋) (capacityFactor (site.report modelId))
  else unlimitedRate .notLimited

end

def modelLimits (user : Credits.User) (model : Credits.AiModel) : ModelLimits :=
  let name := site.modelName model.id
  let counts := site.catalog.countsTowardPool model
  if user.admin then
    ⟨model.id, name, true, model.policy.weight, counts, false, adminRate, adminWindow .window, adminWindow .weekly, false,
      1, 1⟩
  else
    { modelId := model.id
      name := name
      admin := false
      weight := model.policy.weight
      countsTowardPool := counts
      locked := (site.modelOverride user.id model.id).locked
      rate := site.modelRate now user.id model.id
      window := site.modelWindow now user.id model.id .window
      weekly := site.modelWindow now user.id model.id .weekly
      custom := !(site.modelOverride user.id model.id).isEmpty
      dynamic := (site.modelDynamic user.id model.id).getD 1
      capacity := capacityFactor (site.report model.id) }

end Site

theorem modelLimits_period (site : Site) (now : ℚ) {user : Credits.User} (model : Credits.AiModel) (mem : user.admin = false)
  (period : Period) : (site.modelLimits now user model).period period = site.modelWindow now user.id model.id period := by
  unfold Site.modelLimits
  rw [mem]
  cases period <;> rfl

theorem modelLimits_rate (site : Site) (now : ℚ) {user : Credits.User} (model : Credits.AiModel) (mem : user.admin = false) :
  (site.modelLimits now user model).rate = site.modelRate now user.id model.id := by
  unfold Site.modelLimits
  rw [mem]
  rfl

theorem capacityFactor_nonneg (report : Option Limits.Site.Capacity) : 0 <= capacityFactor report := by
  have rounded : ∀ amount : ℚ, 0 <= amount -> 0 <= roundDecimals 2 amount := by
    intro _ nonneg
    have kept := roundDecimals_mono 2 nonneg
    rwa [<- Nat.cast_zero, roundDecimals_natCast] at kept
  unfold capacityFactor
  split
  · exact zero_le_one
  · split
    · exact zero_le_one
    · rename_i least _
      have steps : 0 <= min 1 (max 0 (min 1 least) / Limits.Site.capacityComfort) / dynamicStep := by
        unfold Limits.Site.capacityComfort dynamicStep
        positivity
      have counted : (0 : ℤ) <= roundEven (min 1 (max 0 (min 1 least) / Limits.Site.capacityComfort) / dynamicStep) := by
        have monotone := roundEven_mono steps
        rwa [<- Int.cast_zero, roundEven_whole] at monotone
      refine rounded _ (mul_nonneg (Int.cast_nonneg counted) ?_)
      unfold dynamicStep
      norm_num

end BananaChat.Allowances
