import BananaChat.Credits.Reservations
import BananaChat.Allowances.Tables

namespace BananaChat.Allowances

open Foundation Limits Credits

/-!
# The limits in force

`effective` works out every limit of an account in a pool, `modelLimits` those for one model.
-/

/-- `Reason`: the code, and what its text is made of.  A time is in whole minutes. -/
inductive Reason
  | admin
  | custom
  | default
  | notLimited
  | tier (name : String) (factor : ℚ)
  | customFloor
  | dynamicUp (percent : ℤ)
  | dynamicDown (percent : ℤ)
  | capacity (percent : ℤ)
  | musicMultiplier (factor : ℚ)
  | musicFixed (tokens : ℚ)
  | grantUnlimited (minute : Option ℤ)
  | grantMultiplier (factor : ℚ) (minute : Option ℤ)
  | grantExtra (tokens : ℚ) (minute : Option ℤ)
  | renounced (tokens : ℚ) (minute : Option ℤ)

def percent (factor : ℚ) : ℤ := roundEven (|factor - 1| * 100)

/-- `_until`: to the minute. -/
def minuteOf (stamp : Option ℤ) : Option ℤ := stamp.map (· / 60)

def grantReason (grant : GrantRow) : Reason :=
  match grant.kind with
  | .unlimited => .grantUnlimited (minuteOf grant.endsAt)
  | .multiplier => .grantMultiplier grant.amount (minuteOf grant.endsAt)
  | .extra => .grantExtra grant.amount (minuteOf grant.endsAt)

def Period.scope : Period -> GrantScope
  | .window => .window
  | .weekly => .weekly

section

variable (scope : GrantScope) (grants : List GrantRow)

def relevantGrants : List GrantRow := grants.filter (fun grant => grant.scope = none || grant.scope = some scope)

/-- `_grant_parts`. -/
def unlimitedGrants : List GrantRow := (relevantGrants scope grants).filter (·.kind = .unlimited)

def multiplierGrants : List GrantRow := (relevantGrants scope grants).filter (·.kind = .multiplier)

def extraGrants : List GrantRow :=
  (relevantGrants scope grants).filter (fun grant => (grant.kind = .extra) && grant.scope = some scope)

end

/-- `RateLimit`, with whether its rules are the account's own and why they are what they are. -/
structure RateLimit extends Limits.RateLimit where
  custom : Bool
  reasons : List Reason

def unlimitedRate (reason : Reason) : RateLimit := ⟨⟨false, []⟩, false, [reason]⟩

/-- The reasons of `_rate`, in the order of its steps. -/
def rateReasons (custom limited : Bool) (dynamic : Option ℚ) (dynamicOn : Bool) (grants : List GrantRow) (capacity : ℚ) :
  List Reason :=
  if limited = false then [.notLimited]
  else
    let reasons := [if custom then .custom else .default] ++
      (match dynamic with
        | some factor => if dynamicOn = true /\ custom = false /\ factor < 1 then [.dynamicDown (percent factor)] else []
        | none => []) ++
      (if capacity < 1 then [.capacity (percent capacity)] else [])
    match unlimitedGrants .rate grants with
    | grant :: _ => reasons ++ [grantReason grant]
    | [] => reasons ++ (multiplierGrants .rate grants).map grantReason

/-- `_rate`.  Its rules are those of `Limits.rate`. -/
def rate (enabled : Bool) (baseRules : List RuleBase) (customRules : Option (List RuleBase)) (dynamic : Option ℚ)
  (dynamicOn : Bool) (grants : List GrantRow) (capacity : ℚ) : RateLimit :=
  { toRateLimit := Limits.rate enabled baseRules customRules dynamic dynamicOn (grants.map GrantRow.toGrant) capacity
    custom := customRules.isSome
    reasons := rateReasons customRules.isSome
      ((enabled || customRules.isSome) && !(customRules.getD baseRules).isEmpty) dynamic dynamicOn grants capacity }

structure Window where
  period : Period
  limited : Bool
  tokens : ℚ
  used : ℚ
  startsAt : Option ℤ
  resetsAt : Option ℤ
  base : ℚ
  custom : Bool
  reasons : List Reason

namespace Window

def left (window : Window) : ℚ :=
  if window.limited = false then unlimitedTokens else max 0 (window.tokens - window.used)

def exhausted (window : Window) : Bool := window.limited && (window.left <= 0)

end Window

/-- `_whole`: token amounts are whole numbers. -/
def whole (amount : ℚ) : ℚ := ⌊amount + 1 / 1000000⌋

/-- The keyword arguments of `_window`. -/
structure WindowTerms where
  tier : Option Tier
  dynamic : Option ℚ
  dynamicOn : Bool
  bonus : Bonus
  grants : List GrantRow
  started : Option ℤ
  used : ℚ
  length : ℤ
  limitedOverride : Option Bool
  capacity : ℚ
  renounced : ℚ × Option ℤ

namespace WindowTerms

variable (terms : WindowTerms)

def tierFactor (autoTiers : Bool) : ℚ :=
  if autoTiers then (terms.tier.map Tier.multiplier).getD 1 else 1

def afterDynamic (custom : Bool) (tokens : ℚ) : ℚ :=
  match terms.dynamic with
  | some factor => if terms.dynamicOn = true /\ factor ≠ 1 /\ ¬ (custom /\ factor < 1) then tokens * factor else tokens
  | none => tokens

def afterCapacity (tokens : ℚ) : ℚ := if terms.capacity < 1 then tokens * terms.capacity else tokens

def afterBonus (tokens : ℚ) : ℚ :=
  match terms.bonus with
  | .none => tokens
  | .multiplier factor => tokens * factor
  | .fixed extra => tokens + extra

def afterGrants (period : Period) (tokens : ℚ) : ℚ :=
  (extraGrants period.scope terms.grants).foldl (fun tokens grant => tokens + grant.amount)
    ((multiplierGrants period.scope terms.grants).foldl (fun tokens grant => tokens * grant.amount) tokens)

def afterRenounced (tokens : ℚ) : ℚ :=
  if 0 < terms.renounced.1 then max 0 (tokens - terms.renounced.1) else tokens

def amount (period : Period) (custom : Bool) (tokens : ℚ) : ℚ :=
  whole (terms.afterRenounced (terms.afterGrants period (terms.afterBonus (terms.afterCapacity
    (terms.afterDynamic custom tokens)))))

def ownReasons (autoTiers custom : Bool) : List Reason :=
  [if custom then .custom else .default] ++
  (match terms.tier with
    | some tier => if custom = false /\ terms.tierFactor autoTiers ≠ 1 then [.tier tier.name tier.multiplier] else []
    | none => []) ++
  (match terms.dynamic with
    | some factor =>
      if terms.dynamicOn /\ factor ≠ 1 then
        [if custom /\ factor < 1 then .customFloor
          else if 1 < factor then .dynamicUp (percent factor) else .dynamicDown (percent factor)]
      else []
    | none => []) ++
  (if terms.capacity < 1 then [.capacity (percent terms.capacity)] else []) ++
  (match terms.bonus with
    | .none => []
    | .multiplier factor => if factor ≠ 1 then [.musicMultiplier factor] else []
    | .fixed tokens => [.musicFixed tokens])

end WindowTerms

def window (period : Period) (enabled : Bool) (policyTokens : ℕ) (autoTiers : Bool) (customTokens : Option ℚ)
  (terms : WindowTerms) : Window :=
  let custom := customTokens.isSome
  let limited := terms.limitedOverride.getD (enabled || custom)
  let base := customTokens.getD (policyTokens * terms.tierFactor autoTiers)
  let ends := terms.started.map (· + terms.length)
  let reasons := terms.ownReasons autoTiers custom
  if limited = false then
    ⟨period, false, unlimitedTokens, terms.used, terms.started, ends, base, custom, [.notLimited]⟩
  else
    match unlimitedGrants period.scope terms.grants with
    | grant :: _ =>
      ⟨period, false, unlimitedTokens, terms.used, terms.started, ends, base, custom, reasons ++ [grantReason grant]⟩
    | [] =>
      ⟨period, true, terms.amount period custom base, terms.used, terms.started, ends, whole base, custom,
        reasons ++ (multiplierGrants period.scope terms.grants).map grantReason ++
          (extraGrants period.scope terms.grants).map grantReason ++
          (if 0 < terms.renounced.1 then [.renounced terms.renounced.1 (minuteOf terms.renounced.2)] else [])⟩

structure Effective where
  pool : Pool
  admin : Bool
  rate : RateLimit
  window : Window
  weekly : Window
  speed : Speed
  tier : Option Tier
  tiersApply : Bool
  dynamic : Option ℚ
  dynamicApplies : Bool
  grants : List GrantRow
  bonus : Bonus

def Effective.period (effective : Effective) : Period -> Window
  | .window => effective.window
  | .weekly => effective.weekly

def adminRate : RateLimit := unlimitedRate .admin

def adminWindow (period : Period) : Window := ⟨period, false, unlimitedTokens, 0, none, none, 0, false, [.admin]⟩

def adminResult (pool : Pool) : Effective :=
  ⟨pool, true, adminRate, adminWindow .window, adminWindow .weekly, .normal, none, false, none, false, [], .none⟩

/-- `_custom`: an amount set by an automatically approved request is a floor. -/
def customAmount (override : Override) (period : Period) (policy : WindowSection) (tier : Option Tier) : Option ℚ :=
  match override.tokens period with
  | none => none
  | some value =>
    if period.field ∉ override.automatic then some value
    else some (max value (whole (policy.tokens * (if policy.autoTiers then (tier.map Tier.multiplier).getD 1 else 1))))

def Period.seconds : Period -> ℤ
  | .window => windowSeconds
  | .weekly => weekSeconds

namespace Site

variable (site : Site) (now : ℚ)

def bonusFor (userId : ℕ) : Period -> Bonus
  | .window => site.music.bonus userId
  | .weekly =>
    match site.music.bonus userId with
    | .fixed _ => .fixed site.music.weeklyFixed
    | other => other

def reacts (policy : Policy) : Bool := policy.rate.dynamic || policy.window.dynamic || policy.weekly.dynamic

section

variable (userId : ℕ) (pool : Pool)

def poolDynamic : Option ℚ :=
  if !(site.preferences userId).dynamicExempt && reacts (site.policies pool) then some (site.dynamicFor userId) else none

def poolTier : Option Tier :=
  if (site.policies pool).window.autoTiers || (site.policies pool).weekly.autoTiers then
    resolveTier (site.preferences userId).tierId site.tiers
  else none

/-- What `effective` passes to `_window` for a period. -/
def poolTerms (period : Period) : WindowTerms :=
  let starts := starts site.windows userId (.pool pool) (site.resets userId) now
  let used := usage site.ledger site.reservations userId pool starts.windowSince starts.weekSince
  { tier := site.poolTier userId pool
    dynamic := site.poolDynamic userId pool
    dynamicOn := ((site.policies pool).period period).dynamic
    bonus := site.bonusFor userId period
    grants := site.poolGrants userId pool ⌊now⌋
    started := match period with | .window => starts.windowStart | .weekly => starts.weekStart
    used := roundDecimals 2 (match period with | .window => used.1 | .weekly => used.2)
    length := period.seconds
    limitedOverride := if (site.preferences userId).tokenExempt then some false else none
    capacity := 1
    renounced := site.renounced userId ⌊now⌋ (some pool) none period }

def poolWindow (period : Period) : Window :=
  let policy := (site.policies pool).period period
  window period policy.enabled policy.tokens policy.autoTiers
    (customAmount (site.override userId pool) period policy (site.poolTier userId pool)) (site.poolTerms now userId pool period)

end

def effective (user : Credits.User) (pool : Pool) : Effective :=
  if user.admin then adminResult pool
  else
    let policy := site.policies pool
    let preferences := site.preferences user.id
    let dynamic := site.poolDynamic user.id pool
    let grants := site.poolGrants user.id pool ⌊now⌋
    { pool := pool
      admin := false
      rate :=
        if preferences.rateExempt then unlimitedRate .notLimited
        else rate policy.rate.enabled policy.rate.rules.val (site.override user.id pool).rules dynamic policy.rate.dynamic
          grants 1
      window := site.poolWindow now user.id pool .window
      weekly := site.poolWindow now user.id pool .weekly
      speed := preferences.speed
      tier := site.poolTier user.id pool
      tiersApply := policy.window.autoTiers || policy.weekly.autoTiers
      dynamic := dynamic
      dynamicApplies := !preferences.dynamicExempt && reacts policy
      grants := grants
      bonus := site.bonusFor user.id .window }

/-- `rate_limit`: only the request rate of a pool. -/
def rateLimit (user : Credits.User) (pool : Pool) : RateLimit :=
  if user.admin then adminRate
  else if (site.preferences user.id).rateExempt then unlimitedRate .notLimited
  else
    let policy := (site.policies pool).rate
    let override := site.override user.id pool
    let dynamic := if policy.enabled && policy.dynamic && !override.hasRate && !(site.preferences user.id).dynamicExempt then
        some (site.dynamicFor user.id)
      else none
    rate policy.enabled policy.rules.val override.rules dynamic policy.dynamic (site.poolGrants user.id pool ⌊now⌋) 1

end Site

variable {user : Credits.User}

theorem effective_period (site : Site) (now : ℚ) (pool : Pool) (mem : user.admin = false)
  (period : Period) : (site.effective now user pool).period period = site.poolWindow now user.id pool period := by
  unfold Site.effective
  rw [mem]
  cases period <;> rfl

theorem effective_rate (site : Site) (now : ℚ) (pool : Pool) (mem : user.admin = false)
  (counted : (site.preferences user.id).rateExempt = false) : (site.effective now user pool).rate =
    rate (site.policies pool).rate.enabled (site.policies pool).rate.rules.val (site.override user.id pool).rules
      (site.poolDynamic user.id pool) (site.policies pool).rate.dynamic (site.poolGrants user.id pool ⌊now⌋) 1 := by
  unfold Site.effective
  rw [mem, if_neg Bool.false_ne_true]
  simp [counted]

theorem effective_rate_free {site : Site} {now : ℚ} {pool : Pool}
  (free : ¬ (user.admin = false /\ (site.preferences user.id).rateExempt = false)) :
  (site.effective now user pool).rate.limited = false := by
  unfold Site.effective
  by_cases admin : user.admin
  · rw [if_pos admin]
    rfl
  · rw [if_neg admin]
    have exempt : (site.preferences user.id).rateExempt :=
      Bool.of_not_eq_false (fun counted => free ⟨Bool.of_not_eq_true admin, counted⟩)
    simp only [if_pos exempt]
    rfl

theorem rate_without_dynamic {enabled : Bool} {baseRules : List RuleBase} {customRules : Option (List RuleBase)}
  {dynamicOn : Bool} (dynamic : Option ℚ) (grants : List GrantRow) (capacity : ℚ)
  (idle : enabled = false \/ dynamicOn = false \/ customRules.isSome) :
  rate enabled baseRules customRules dynamic dynamicOn grants capacity =
    rate enabled baseRules customRules none dynamicOn grants capacity := by
  have reduced : ∀ rules : List RateRule,
      ((enabled || customRules.isSome) && !(customRules.getD baseRules).isEmpty) ->
      dynamicRules rules dynamic dynamicOn customRules.isSome = rules := by
    intro _ limited
    cases dynamic with
    | none => rfl
    | some factor =>
      refine if_neg ?_
      rintro ⟨on, plain, _⟩
      rw [plain] at limited idle
      rcases idle with off | off | off
      · rw [off] at limited
        cases limited
      · exact Bool.false_ne_true (off.symm.trans on)
      · cases off
  have silent : ((enabled || customRules.isSome) && !(customRules.getD baseRules).isEmpty) ->
      (match dynamic with
        | some factor =>
          if dynamicOn /\ customRules.isSome = false /\ factor < 1 then [Reason.dynamicDown (percent factor)] else []
        | none => []) = [] := by
    intro limited
    cases dynamic with
    | none => rfl
    | some factor =>
      refine if_neg ?_
      rintro ⟨on, plain, _⟩
      rw [plain] at limited idle
      rcases idle with off | off | off
      · rw [off] at limited
        cases limited
      · exact Bool.false_ne_true (off.symm.trans on)
      · cases off
  by_cases limited : ((enabled || customRules.isSome) && !(customRules.getD baseRules).isEmpty)
  · simp only [rate, Limits.rate, rateReasons, reduced _ limited, silent limited]
    rfl
  · have off := Bool.of_not_eq_true limited
    simp [rate, Limits.rate, rateReasons, off]

/-- The request rate alone is the one among all limits. -/
theorem rateLimit_eq_effective (site : Site) (now : ℚ) (user : Credits.User) (pool : Pool) :
  site.rateLimit now user pool = (site.effective now user pool).rate := by
  unfold Site.rateLimit Site.effective
  by_cases admin : user.admin
  · rw [if_pos admin, if_pos admin]
    rfl
  · rw [if_neg admin, if_neg admin]
    by_cases exempt : (site.preferences user.id).rateExempt
    · simp only [if_pos exempt]
    · simp only [if_neg exempt]
      have custom : (site.override user.id pool).rules.isSome = (site.override user.id pool).hasRate := Option.isSome_map
      by_cases idle : (site.policies pool).rate.enabled = false \/ (site.policies pool).rate.dynamic = false \/
          (site.override user.id pool).rules.isSome
      · rw [rate_without_dynamic _ _ _ idle, rate_without_dynamic (site.poolDynamic user.id pool) _ _ idle]
      · have on : (site.policies pool).rate.enabled :=
          Bool.of_not_eq_false (fun off => idle (.inl off))
        have reacts : (site.policies pool).rate.dynamic :=
          Bool.of_not_eq_false (fun off => idle (.inr (.inl off)))
        have plain : (site.override user.id pool).hasRate = false :=
          custom ▸ Bool.of_not_eq_true (fun own => idle (.inr (.inr own)))
        simp only [Site.poolDynamic, Site.reacts, on, reacts, plain, Bool.true_and, Bool.true_or, Bool.and_true,
          Bool.not_false]

end BananaChat.Allowances
