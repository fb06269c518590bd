import BananaChat.Credits.Usage
import BananaChat.Limits.RateCleanup
import BananaChat.Allowances.Rules

namespace BananaChat.Allowances

open Limits

/-!
# What the limits of an account are computed from

Policies say what everyone gets, an override what one account gets instead.
-/

/-- `PERIODS`. -/
inductive Period
  | window
  | weekly
deriving DecidableEq

structure RateSection where
  enabled : Bool
  rules : CheckedRules
  dynamic : Bool
  ruled : enabled -> rules.val ≠ []

def tokensMax : ℕ := 2000000000

structure WindowSection where
  enabled : Bool
  tokens : ℕ
  dynamic : Bool
  autoTiers : Bool
  bounded : tokens <= tokensMax

structure Policy where
  rate : RateSection
  window : WindowSection
  weekly : WindowSection

def Policy.period (policy : Policy) : Period -> WindowSection
  | .window => policy.window
  | .weekly => policy.weekly

/-- `DEFAULT_POLICIES`: one request per second, and the 5-hour tokens of the API. -/
def defaultPolicy (pool : Pool) : Policy :=
  let burst := match pool with | .chat => 5 | .api | .agent => 10
  let rules : List RuleBase := [⟨1, .second, burst⟩]
  have ruleset : Ruleset rules :=
    ⟨List.pairwise_singleton _ _, fun rule mem => by
      rw [List.mem_singleton.mp mem]
      cases pool <;> decide⟩
  { rate := ⟨true, checkedRules rules ruleset, false, fun _ => List.cons_ne_nil _ _⟩
    window :=
      match pool with
      | .api => ⟨true, 45000, false, false, by decide⟩
      | .chat | .agent => ⟨false, 100000, false, false, by decide⟩
    weekly :=
      match pool with
      | .api => ⟨false, 150000, false, false, by decide⟩
      | .chat | .agent => ⟨false, 500000, false, false, by decide⟩ }

/-- What the policy of a model says besides its weight and whether it counts toward the pool. -/
structure ModelRules where
  enabled : Bool
  tokensEnabled : Bool
  rateEnabled : Bool
  rateRules : CheckedRules
  windowTokens : Option ℕ
  weeklyTokens : Option ℕ
  dynamic : Bool
  sensitivity : ℚ
  autoTiers : Bool

def ModelRules.tokens (rules : ModelRules) : Period -> Option ℕ
  | .window => rules.windowTokens
  | .weekly => rules.weeklyTokens

structure Tier where
  id : ℕ
  name : String
  multiplier : ℚ
  nonneg : 0 <= multiplier

/-- `resolve_tier`: an unknown or unset tier means the first one. -/
def resolveTier (tierId : Option ℕ) (tiers : List Tier) : Option Tier :=
  (tiers.find? (tierId = some ·.id)).or tiers.head?

/-- `SPEEDS`. -/
inductive Speed
  | slow
  | normal
  | fast
deriving DecidableEq

/-- The row of `user_limits`, as far as limits read it. -/
structure UserSettings where
  tierId : Option ℕ
  dynamicExempt : Bool
  speed : Speed
  usageResetAt : Option ℤ
  weeklyResetAt : Option ℤ
  tokenExempt : Bool
  rateExempt : Bool

structure CustomRules where
  rules : List RuleBase
  ruleset : Ruleset rules
  nonempty : rules ≠ []
deriving DecidableEq

/-- `_OVERRIDE_FIELDS`. -/
inductive OverrideField
  | rateRules
  | windowTokens
  | weeklyTokens
deriving DecidableEq

def Period.field : Period -> OverrideField
  | .window => .windowTokens
  | .weekly => .weeklyTokens

/-- Custom limits of one account in one pool.  The amounts in `automatic` were set by an
automatically approved request. -/
structure Override where
  rateRules : Option CustomRules
  windowTokens : Option ℕ
  weeklyTokens : Option ℕ
  automatic : Finset OverrideField

namespace Override

def unset : Override := ⟨none, none, none, ∅⟩

def tokens (override : Override) : Period -> Option ℕ
  | .window => override.windowTokens
  | .weekly => override.weeklyTokens

/-- The rules of `rate_rules`. -/
def rules (override : Override) : Option (List RuleBase) := override.rateRules.map CustomRules.rules

def hasRate (override : Override) : Bool := override.rateRules.isSome

def isEmpty (override : Override) : Bool :=
  !(override.hasRate || override.windowTokens.isSome || override.weeklyTokens.isSome)

end Override

structure ModelOverride where
  rateRules : Option CustomRules
  windowTokens : Option ℕ
  weeklyTokens : Option ℕ
  locked : Bool
  tokenExempt : Bool
  rateExempt : Bool

namespace ModelOverride

def unset : ModelOverride := ⟨none, none, none, false, false, false⟩

def tokens (override : ModelOverride) : Period -> Option ℕ
  | .window => override.windowTokens
  | .weekly => override.weeklyTokens

def rules (override : ModelOverride) : Option (List RuleBase) := override.rateRules.map CustomRules.rules

def isEmpty (override : ModelOverride) : Bool :=
  !(override.rateRules.isSome || override.windowTokens.isSome || override.weeklyTokens.isSome || override.locked
    || override.tokenExempt || override.rateExempt)

end ModelOverride

/-- A row of `limit_grants` with its times.  `validate_grant` lets in no extra amount below one. -/
structure GrantRow extends Grant where
  startsAt : ℤ
  endsAt : Option ℤ
  revoked : Bool
  adds : kind = .extra -> 1 <= amount

/-- Tokens an account renounced to support the request of another: a row of `quota_request_votes`. -/
structure Pledge where
  userId : ℕ
  pool : Option Pool
  modelId : Option ℕ
  period : Period
  tokens : ℕ
  startsAt : ℤ
  endsAt : ℤ
  released : Bool

/-- What the administrator set for the music program. -/
structure Music where
  enabled : Bool
  fixedMode : Bool
  creditMultiplier : Option ℚ
  fixedTokens : Option ℕ
  fixedCredits : Option ℕ
  fixedWeeklyTokens : Option ℕ
  optedIn : ℕ -> Bool

inductive Bonus
  | none
  | multiplier (factor : ℚ)
  | fixed (tokens : ℚ)

/-- `music_fixed`. -/
def Music.fixed (music : Music) : ℚ :=
  match music.fixedTokens with
  | some tokens => tokens
  | none => (music.fixedCredits.getD 30 : ℕ) * Credits.tokensPerCredit

/-- `music_weekly_fixed`. -/
def Music.weeklyFixed (music : Music) : ℚ :=
  match music.fixedWeeklyTokens with
  | some tokens => tokens
  | none => music.fixed * 7

/-- `music_bonus`. -/
def Music.bonus (music : Music) (userId : ℕ) : Bonus :=
  if music.enabled = false then .none
  else if music.optedIn userId = false then .none
  else if music.fixedMode then .fixed music.fixed
  else .multiplier (match music.creditMultiplier with | some factor => max 0 factor | none => 2)

structure Site where
  /-- The accounts, the models with their weights, and which of them consume tokens in chat. -/
  catalog : Credits.Site
  policies : Pool -> Policy
  modelRules : ℕ -> ModelRules
  /-- The display name of a model, or the one it has in Ollama. -/
  modelName : ℕ -> String
  /-- What the provider of a model reports it has left, when it reports anything. -/
  report : ℕ -> Option Limits.Site.Capacity
  tiers : List Tier
  music : Music
  globalWindow : Option ℤ
  globalWeek : Option ℤ
  quotaFallbackToLocal : Option Bool
  quotaFallbackToCloud : Option Bool
  preferences : ℕ -> UserSettings
  overrides : ℕ -> Pool -> Option Override
  modelOverrides : ℕ -> ℕ -> Option ModelOverride
  grants : List GrantRow
  nextGrantId : ℕ
  pledges : List Pledge
  ledger : List Credits.LedgerRow
  reservations : List Credits.Reservation
  windows : List LimitWindow
  /-- The demand on the site times the pattern of an account, before `quantise`. -/
  load : ℕ -> ℚ

namespace Site

variable (site : Site)

def override (userId : ℕ) (pool : Pool) : Override := (site.overrides userId pool).getD .unset

def modelOverride (userId modelId : ℕ) : ModelOverride := (site.modelOverrides userId modelId).getD .unset

/-- `active_grants`, oldest first. -/
def activeGrants (userId : ℕ) (stamp : ℤ) : List GrantRow :=
  site.grants.filter (fun grant => grant.isFor userId && !grant.revoked && (grant.startsAt <= stamp) &&
    (match grant.endsAt with | none => true | some ends => stamp < ends))

def poolGrants (userId : ℕ) (pool : Pool) (stamp : ℤ) : List GrantRow :=
  (site.activeGrants userId stamp).filter (·.forPool pool)

def modelGrants (userId modelId : ℕ) (stamp : ℤ) : List GrantRow :=
  (site.activeGrants userId stamp).filter (·.forModel modelId)

section

variable (userId : ℕ) (stamp : ℤ) (pool : Option Pool) (modelId : Option ℕ)

def activePledges (period : Period) : List Pledge :=
  site.pledges.filter (fun row => decide (row.userId = userId /\ 0 < row.tokens /\ row.released = false /\
    row.startsAt <= stamp /\ stamp < row.endsAt /\ row.pool = pool /\ row.modelId = modelId /\ row.period = period))

/-- `_renounced`: the tokens an account gave up of one limit, and until when. -/
def renounced (period : Period) : ℚ × Option ℤ :=
  let rows := site.activePledges userId stamp pool modelId period
  (((rows.map Pledge.tokens).sum : ℕ), (rows.map Pledge.endsAt).max?)

end

/-- `dynamic_for`, its multiplier. -/
def dynamicFor (userId : ℕ) : ℚ := quantise (site.load userId)

def resets (userId : ℕ) : Credits.Resets :=
  ⟨(site.preferences userId).usageResetAt, (site.preferences userId).weeklyResetAt, site.globalWindow, site.globalWeek⟩

end Site

def freshSite : Site where
  catalog := ⟨[], [], [], [], none, none⟩
  policies := defaultPolicy
  modelRules := fun _ => ⟨false, true, true, checkedRules [] ⟨List.Pairwise.nil, fun _ mem => nomatch mem⟩, none, none,
    false, 1, false⟩
  modelName := fun _ => ""
  report := fun _ => none
  tiers := []
  music := ⟨false, false, none, none, none, none, fun _ => false⟩
  globalWindow := none
  globalWeek := none
  quotaFallbackToLocal := none
  quotaFallbackToCloud := none
  preferences := fun _ => ⟨none, false, .normal, none, none, false, false⟩
  overrides := fun _ _ => none
  modelOverrides := fun _ _ => none
  grants := []
  nextGrantId := 1
  pledges := []
  ledger := []
  reservations := []
  windows := []
  load := fun _ => 1

end BananaChat.Allowances
