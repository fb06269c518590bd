import Mathlib
import BananaChat.Foundation.Dictionary
import BananaChat.Foundation.Rounding

namespace BananaChat.Migrations

open Foundation

/-!
# Version 16: one token budget

The upgrade that puts the regular and the slow allowance of a window together. A table is what
it holds under each primary key.
-/

/-- The rounding of floats, as far as products and sums of this size need it. -/
structure FloatRounding where
  nearest : ℚ -> ℚ
  monotone : Monotone nearest
  near : ∀ value : ℚ, |value| <= 2 ^ 60 -> |nearest value - value| <= (|value| + 1) / 2 ^ 53

/-- A stored value other than null: what `float` makes of it, if that is a finite number. -/
inductive Stored
  | number (value : ℚ)
  | unusable

def oldTokensMax : ℕ := 1000000000

def tokensMax : ℕ := 2000000000

def overrideWindowMax : ℕ := 200000000000

def tokensPerCredit : ℕ := 1000

def numberOr (value : Option Stored) (fallback : ℚ) : ℚ :=
  match value with
  | some (.number number) => number
  | _ => fallback

/-- The end of `_amount`. -/
def limitedTo (maximum : ℕ) (number : ℚ) : ℕ := ⌈max 0 (min (maximum : ℚ) number)⌉₊

/-- `_amount` with factor 1. -/
def amount (value : Option Stored) (fallback : ℚ) (maximum : ℕ) : ℕ := limitedTo maximum (numberOr value fallback)

/-- `_total` of two amounts. -/
def total (first second maximum : ℕ) : ℕ := min maximum (first + second)

def stored (tokens : ℕ) : Option Stored := some (.number tokens)

def fromTokensOrCredits (rounding : FloatRounding) (tokens credits : Option Stored) (default : ℕ) : ℕ :=
  match tokens with
  | some value => amount (some value) 0 tokensMax
  | none => limitedTo tokensMax (rounding.nearest (numberOr credits default * tokensPerCredit))

/-- The versions of a policy that are read as they are. -/
inductive Version
  | two
  | three
deriving DecidableEq

/-- A policy of version 2 or 3; `other` is all that the upgrade leaves alone. -/
structure PolicyConfig (Other : Type) where
  version : Version
  tokens : Option Stored
  slowTokens : Option Stored
  autoTiers : Bool
  other : Other

/-- The daily section of a policy of version 1; none where a key is missing. -/
structure DailySection where
  credits : Option (Option Stored)
  slowCredits : Option (Option Stored)
  autoTiers : Option Bool

/-- A stored policy: of version 2 or 3, or what version 9 converts; `other` is then the rest of its result. -/
inductive StoredPolicy (Other : Type)
  | current (config : PolicyConfig Other)
  | older (daily : DailySection) (other : Other)

def windowDefaults (pool : String) : ℕ × ℕ := if pool = "api" then (30000, 15000) else (100000, 0)

/-- The daily credits of version 9's `_DEFAULTS`. -/
def dailyDefaults (pool : String) : ℕ × ℕ := if pool = "api" then (30, 15) else (100, 0)

/-- A window amount of version 9's `convert_policy`. -/
def convertedTokens (rounding : FloatRounding) (credits : Option Stored) (fallback : ℕ) : Option Stored :=
  some (.number (roundEven (rounding.nearest (numberOr credits fallback * tokensPerCredit))))

/-- `convert_policy` of version 9. -/
def convertPolicy {Other : Type} (rounding : FloatRounding) (pool : String) (daily : DailySection) (other : Other) :
  PolicyConfig Other where
  version := .two
  tokens := convertedTokens rounding (daily.credits.getD (stored (dailyDefaults pool).1)) (dailyDefaults pool).1
  slowTokens := convertedTokens rounding (daily.slowCredits.getD (stored (dailyDefaults pool).2)) 0
  autoTiers := daily.autoTiers.getD false
  other := other

def StoredPolicy.config {Other : Type} (rounding : FloatRounding) (pool : String) : StoredPolicy Other -> PolicyConfig Other
  | .current config => config
  | .older daily other => convertPolicy rounding pool daily other

/-- An entry of `old_windows`. -/
structure OldWindow where
  regular : ℕ
  slow : ℕ
  tiered : Bool

def PolicyConfig.oldWindow {Other : Type} (slowEnabled : Bool) (pool : String) (config : PolicyConfig Other) : OldWindow where
  regular := amount config.tokens (windowDefaults pool).1 (if config.version = .three then tokensMax else oldTokensMax)
  slow :=
    if slowEnabled /\ config.version ≠ .three then amount config.slowTokens (windowDefaults pool).2 oldTokensMax else 0
  tiered := config.autoTiers

def PolicyConfig.merged {Other : Type} (slowEnabled : Bool) (pool : String) (config : PolicyConfig Other) :
  PolicyConfig Other :=
  let window := config.oldWindow slowEnabled pool
  { config with version := .three, tokens := stored (total window.regular window.slow tokensMax), slowTokens := none }

/-- A row of `user_limit_overrides`; `automatic` holds the names of the column. -/
structure LimitOverride (Other : Type) where
  windowTokens : Option Stored
  windowSlowTokens : Option Stored
  dailySlowCredits : Option Stored
  weeklyTokens : Option Stored
  rateRules : Option String
  automatic : List String
  other : Other

def factor (multiplier : Option Stored) : ℚ :=
  match multiplier with
  | some (.number number) => max 0 (min 100 number)
  | _ => 1

def tierDefault (rounding : FloatRounding) (factor : ℚ) (tokens : ℕ) : ℕ :=
  ⌊rounding.nearest (min (overrideWindowMax : ℚ) (rounding.nearest (tokens * factor)) + rounding.nearest (1 / 1000000))⌋₊

def component (automatic : Bool) (value : Option Stored) (default : ℕ) : ℕ :=
  match value with
  | none => default
  | some value =>
    let tokens := amount (some value) 0 overrideWindowMax
    if automatic then max tokens default else tokens

/-- `explicit` is not empty. -/
def LimitOverride.explicit {Other : Type} (slowEnabled : Bool) (row : LimitOverride Other) : Bool :=
  row.windowTokens.isSome || slowEnabled && row.windowSlowTokens.isSome

/-- All of `explicit` is automatic. -/
def LimitOverride.allAutomatic {Other : Type} (slowEnabled : Bool) (row : LimitOverride Other) : Bool :=
  (row.windowTokens.isNone || ("window_tokens" ∈ row.automatic)) &&
    (!slowEnabled || row.windowSlowTokens.isNone || ("window_slow_tokens" ∈ row.automatic))

/-- `total` of `_overrides`, where something is explicit. -/
def LimitOverride.sum {Other : Type} (rounding : FloatRounding) (slowEnabled : Bool) (window : OldWindow) (factor : ℚ)
  (row : LimitOverride Other) : ℕ :=
  total
    (component (("window_tokens" ∈ row.automatic)) row.windowTokens (tierDefault rounding factor window.regular))
    (if slowEnabled then
      component (("window_slow_tokens" ∈ row.automatic)) row.windowSlowTokens (tierDefault rounding factor window.slow)
    else 0)
    overrideWindowMax

/-- `floors` of `_overrides`: the automatic fields of the converted limit, sorted. -/
def LimitOverride.floors {Other : Type} (slowEnabled : Bool) (row : LimitOverride Other) : List String :=
  ["rate_rules", "weekly_tokens", "window_tokens"].filter (fun name =>
    if name = "window_tokens" then row.explicit slowEnabled && row.allAutomatic slowEnabled
    else name ∈ row.automatic)

def LimitOverride.merged {Other : Type} (rounding : FloatRounding) (slowEnabled : Bool) (window : OldWindow) (factor : ℚ)
  (row : LimitOverride Other) : LimitOverride Other :=
  { row with
    windowTokens := if row.explicit slowEnabled then stored (row.sum rounding slowEnabled window factor) else none
    windowSlowTokens := stored 0
    dailySlowCredits := stored 0
    automatic := row.floors slowEnabled }

/-- The condition of the deletion at the end of `_overrides`. -/
def LimitOverride.isEmpty {Other : Type} (row : LimitOverride Other) : Bool :=
  row.windowTokens.isNone && row.weeklyTokens.isNone &&
    (row.rateRules = none \/ row.rateRules = some "" \/ row.rateRules = some "[]")

/-- A row of `quota_requests`. -/
structure LimitRequest where
  kind : String
  newTokens : Option Stored
  newCredits : Option Stored
  newSlowTokens : Option Stored
  newSlowCredits : Option Stored

/-- `_requests` for one row. -/
def LimitRequest.merged (rounding : FloatRounding) (slowEnabled : Bool) (row : LimitRequest) : LimitRequest :=
  let slow := if slowEnabled then fromTokensOrCredits rounding row.newSlowTokens row.newSlowCredits 0 else 0
  let sum := total (fromTokensOrCredits rounding row.newTokens row.newCredits 0) slow tokensMax
  let added : LimitRequest :=
    if row.kind = "daily" \/ row.kind = "window" then
      { row with
        newTokens := stored sum
        newCredits := stored ⌈rounding.nearest (sum / tokensPerCredit)⌉₊ }
    else row
  { added with newSlowTokens := stored 0, newSlowCredits := stored 0 }

/-- The columns of `site_settings` that the upgrade reads. -/
structure SiteSettings where
  slowCreditsEnabled : Bool
  autoApproveTokens : Option Stored
  autoApproveCredits : Option Stored
  autoApproveSlowTokens : Option Stored
  autoApproveSlowCredits : Option Stored
  bonusTokens : Option Stored
  bonusCredits : Option Stored
  bonusSlowTokens : Option Stored
  bonusSlowCredits : Option Stored
  bonusWeeklyTokens : Option Stored

/-- `_settings`. -/
def SiteSettings.merged (rounding : FloatRounding) (settings : SiteSettings) : SiteSettings :=
  let automatic := fromTokensOrCredits rounding settings.autoApproveTokens settings.autoApproveCredits 0
  let fixed := fromTokensOrCredits rounding settings.bonusTokens settings.bonusCredits 30
  let weekly := amount settings.bonusWeeklyTokens (fixed * 7 : ℕ) (7 * tokensMax)
  let slow := fromTokensOrCredits rounding settings.autoApproveSlowTokens settings.autoApproveSlowCredits 0
  let fixedSlow := fromTokensOrCredits rounding settings.bonusSlowTokens settings.bonusSlowCredits 15
  { settings with
    slowCreditsEnabled := false
    autoApproveTokens := stored (if settings.slowCreditsEnabled then total automatic slow tokensMax else automatic)
    autoApproveSlowTokens := stored 0
    autoApproveSlowCredits := stored 0
    bonusTokens := stored (if settings.slowCreditsEnabled then total fixed fixedSlow tokensMax else fixed)
    bonusSlowTokens := stored 0
    bonusSlowCredits := stored 0
    bonusWeeklyTokens := stored weekly }

structure Database (Other : Type) where
  settings : SiteSettings
  policies : String -> Option (StoredPolicy Other)
  /-- `limit_tiers` in the order of position and id. -/
  tiers : List (ℕ × Option Stored)
  /-- `tier_id` of `user_limits`; none where it is null or there is no row. -/
  userTiers : String -> Option ℕ
  overrides : String -> String -> Option (LimitOverride Other)
  requests : ℕ -> Option LimitRequest

variable {Other : Type}

def Database.tierFactor (database : Database Other) (userId : String) : ℚ :=
  let entry :=
    match database.tiers with
    | [] => 1
    | tier :: _ => factor tier.2
  (((database.userTiers userId).bind (Dictionary.get? · database.tiers)).map factor).getD entry

/-- `old_windows.get(pool, ...)`. -/
def Database.oldWindow (rounding : FloatRounding) (database : Database Other) (pool : String) : OldWindow :=
  match database.policies pool with
  | some policy => (policy.config rounding pool).oldWindow database.settings.slowCreditsEnabled pool
  | none => ⟨100000, 0, false⟩

section

variable (rounding : FloatRounding) (database : Database Other)

def Database.factorIn (userId pool : String) : ℚ :=
  if (database.oldWindow rounding pool).tiered then database.tierFactor userId else 1

def upgrade : Database Other :=
  let slowEnabled := database.settings.slowCreditsEnabled
  { database with
    settings := database.settings.merged rounding
    policies := fun pool =>
      (database.policies pool).map (fun policy => .current ((policy.config rounding pool).merged slowEnabled pool))
    overrides := fun userId pool =>
      ((database.overrides userId pool).map (fun row =>
        row.merged rounding slowEnabled (database.oldWindow rounding pool) (database.factorIn rounding userId pool))).filter
          (!·.isEmpty)
    requests := fun id => (database.requests id).map (LimitRequest.merged rounding slowEnabled) }

end

def regularBudgetWith (default : ℕ) (row : Option (LimitOverride Other)) : ℕ :=
  match row with
  | none => default
  | some row => component (("window_tokens" ∈ row.automatic)) row.windowTokens default

def Database.regularBudget (rounding : FloatRounding) (database : Database Other) (userId pool : String) : ℕ :=
  regularBudgetWith
    (tierDefault rounding (database.factorIn rounding userId pool) (database.oldWindow rounding pool).regular)
    (database.overrides userId pool)

end BananaChat.Migrations
