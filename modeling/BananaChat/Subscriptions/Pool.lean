import BananaChat.Foundation.Rounding
import BananaChat.Subscriptions.Accounts

namespace BananaChat.Subscriptions.Pooled

open Foundation

/-!
# The quota of a subscription pool

What is left of a provider's subscriptions is put together from three places: the local counters of
every account, the last observation of every account that its adapter made, and one aggregate
report.
-/

/-- A number that passes `_valid_fraction`. -/
abbrev Fraction := { amount : ℚ // 0 <= amount /\ amount <= 1 }

def IsFraction (left : Option ℚ) : Prop := ∀ value, left = some value -> 0 <= value /\ value <= 1

/-- A percentage that passes the check of its column. -/
structure Percent where
  value : ℕ
  positive : 0 < value
  atMost : value <= 100

/-- A row of `subscription_accounts` with the columns that the quota reads. -/
structure PoolAccount extends Account where
  priority : ℤ
  windowLimit : Option ℕ
  weeklyLimit : Option ℕ
  windowCapPct : Option Percent
  weeklyCapPct : Option Percent
  quotaUpdatedAt : Option ℤ
  quotaWindowUpdatedAt : Option ℤ
  quotaWeeklyUpdatedAt : Option ℤ
  lastCheckedAt : Option ℤ

/-- A row of `subscription_account_caps`. -/
structure ScopedCap where
  capPct : Option Percent
  windowCap : Option ℕ
  weeklyCap : Option ℕ

/-- The sources that `_validated_report` lets pass; the native one is the provider's own. -/
inductive ReportSource
  | localBudget
  | file
  | native
deriving DecidableEq

inductive ReportStatus
  | available
  | unavailable
  | stale

/-- An entry of `model_limits`. -/
structure ScopedReport where
  left : Fraction
  resetsAt : Option ℚ

structure Report where
  available : Bool
  source : ReportSource
  status : ReportStatus
  observedAt : Option ℚ
  windowResetsAt : Option ℚ
  weeklyResetsAt : Option ℚ
  windowLeft : Option Fraction
  weeklyLeft : Option Fraction
  modelLimits : List (String × ScopedReport)

/-- What `pooled_quota` returns. -/
structure Quota where
  windowLeft : Option ℚ
  weeklyLeft : Option ℚ
  accounts : ℕ
  usable : ℕ
  busy : ℕ
  stale : ℕ
  reporterError : Bool
  windowFraction : IsFraction windowLeft
  weeklyFraction : IsFraction weeklyLeft

/-- The pool of a provider.  Caps and usage that cannot be read are `none`; `reporter` and `chat` say
whether the adapter has registered them. -/
structure Pool where
  accounts : List PoolAccount
  caps : ℕ -> Option (List (String × ScopedCap))
  usage : Option (List UsageRow)
  leases : List Lease
  reports : Option (List (ℕ × Report))
  reporter : Bool
  chat : Bool
  cache : Option (ℚ × Quota)

/-- `list_accounts(provider=provider, include_disabled=False)`. -/
def Pool.listAccounts (pool : Pool) : List PoolAccount := pool.accounts.filter (·.status = .active)

def quotaMaxAge : ℚ := 900

def currentOf (source : QuotaSource) (used : ℕ) (resetsAt : Option ℤ) (now : ℚ) : ℕ :=
  if source = .localBudget /\ resetsAt.any (fun reset : ℤ => (reset : ℚ) <= now) then 0 else used

def current (row : Account) (now : ℚ) : ℕ × ℕ :=
  (currentOf row.quotaSource row.windowUsed row.windowResetsAt now,
    currentOf row.quotaSource row.weeklyUsed row.weeklyResetsAt now)

def resting (row : Account) (now : ℚ) : Bool := row.cooldownUntil.any (fun ends : ℤ => now < ends)

/-- One turn of the loop of `quota_fresh`. -/
def windowFresh (limit : Option ℕ) (resetsAt updatedAt : Option ℤ) (now : ℚ) : Bool :=
  limit.isNone || (updatedAt.any (fun checked : ℤ => (checked : ℚ) <= now + 60 /\ now - checked <= quotaMaxAge) &&
      resetsAt.all fun reset : ℤ => now < reset)

def quotaFresh (row : PoolAccount) (now : ℚ) : Bool :=
  (row.quotaSource = .localBudget) || (windowFresh row.windowLimit row.windowResetsAt row.quotaWindowUpdatedAt now &&
      windowFresh row.weeklyLimit row.weeklyResetsAt row.quotaWeeklyUpdatedAt now)

/-- `account_reports`: nothing without a reporter. -/
def Pool.accountReports (pool : Pool) : Option (List (ℕ × Report)) := if pool.reporter then pool.reports else none

def Report.scope (report : Report) (family : Option String) : Option ScopedReport :=
  family.bind fun name => report.modelLimits.lookup name

def reportFresh (report : Option Report) (now : ℚ) (family : Option String) : Bool :=
  match report with
  | none => false
  | some report =>
    if report.available = false then false
    else if report.source = .localBudget then true
    else
      match report.observedAt with
      | none => false
      | some observed =>
        (0 <= now - observed /\ now - observed <= quotaMaxAge) &&
          !(report.windowLeft.isNone && (report.source = .native)) &&
          report.windowResetsAt.all (now < ·) &&
          report.weeklyResetsAt.all (now < ·) &&
          (report.scope family).all (fun scope => scope.resetsAt.all (now < ·))

def subscriptionFresh (pool : Pool) (row : PoolAccount) (now : ℚ) : Bool :=
  match pool.accountReports with
  | none => true
  | some reports => reportFresh (reports.lookup row.id) now none

/-- `_capped`.  A percentage is positive, so the division is one. -/
def capped (left : Option ℚ) (percent : Option Percent) : Option ℚ :=
  match percent, left with
  | none, left => left
  | some _, none => some 0
  | some percent, some left =>
    let used := roundDecimals 6 ((1 - left) * 100)
    some (if percent.value <= used then 0 else min 1 ((percent.value - used) / percent.value))

section

variable (pool : Pool)

def Pool.familyPct (row : PoolAccount) (family : Option String) : Option (Option Percent) :=
  match family with
  | none => some none
  | some family => (pool.caps row.id).map fun caps => (caps.lookup family).bind ScopedCap.capPct

def upstreamCapacity (row : PoolAccount) (now : ℚ) (family : Option String) : Option ℚ × Option ℚ :=
  match pool.familyPct row family with
  | none => (some 0, some 0)
  | some familyPct =>
    let isCapped := row.windowCapPct.isSome || row.weeklyCapPct.isSome || familyPct.isSome
    match pool.accountReports with
    | none => if isCapped then (some 0, some 0) else (none, none)
    | some reports =>
      match reports.lookup row.id with
      | none => (some 0, some 0)
      | some report =>
        if reportFresh (some report) now family = false then (some 0, some 0)
        else if report.source = .localBudget then if isCapped then (some 0, some 0) else (none, none)
        else
          let window := capped (report.windowLeft.map Subtype.val) row.windowCapPct
          let weekly := capped (report.weeklyLeft.map Subtype.val) row.weeklyCapPct
          if family.isNone then (window, weekly)
          else
            match capped ((report.scope family).map fun scope => scope.left.val) familyPct with
            | none => (window, weekly)
            | some left => (window, some (weekly.elim left fun weekly => min weekly left))

section

variable (accountId : ℕ) (family : String) (since : ℚ)

def Pool.scopedSum : Option ℕ :=
  pool.usage.map fun rows => Rows.sumWhere
    (fun row => row.accountId = accountId /\ row.family = family /\ since < row.createdEpoch)
    (fun row => row.tokensIn + row.tokensOut) rows

/-- One turn of the loop of `_scoped_ok`. -/
def scopedUnder (limit : Option ℕ) : Bool :=
  limit.all fun limit => (pool.scopedSum accountId family since).any fun used => used < limit

end

def scopedOk (row : PoolAccount) (family : Option String) (now : ℚ) : Bool :=
  family.all fun family => (pool.caps row.id).any fun caps => (caps.lookup family).all fun cap =>
    scopedUnder pool row.id family (now - Limits.windowSeconds) cap.windowCap &&
      scopedUnder pool row.id family (now - Limits.weekSeconds) cap.weeklyCap

def usable (row : PoolAccount) (now : ℚ) (family : Option String) : Bool :=
  if row.status ≠ .active \/ row.windowLimit = none \/ resting row.toAccount now \/ quotaFresh row now = false then false
  else
    let upstream := upstreamCapacity pool row now family
    if upstream.1.any (· <= 0) \/ upstream.2.any (· <= 0) then false
    else
      let counters := current row.toAccount now
      if row.windowLimit.any (· <= counters.1) then false
      else if row.weeklyLimit.any (· <= counters.2) then false
      else scopedOk pool row family now

end

def quotient (amount divisor : ℚ) : Except String ℚ :=
  if divisor = 0 then .error "float division by zero" else .ok (amount / divisor)

def budgetSums (limit : PoolAccount -> Option ℕ) (left : PoolAccount -> ℚ -> ℚ) (rows : List PoolAccount) : ℚ × ℚ :=
  rows.foldl (fun sums row =>
    let amount : ℚ := (limit row).getD 0
    if amount <= 0 then sums else (sums.1 + amount, sums.2 + left row amount)) (0, 0)

def leftOf (isUsable : Bool) (used : ℕ) (upstream : Option ℚ) (limit : ℚ) : ℚ :=
  if isUsable then
    let remaining := max 0 (limit - used)
    upstream.elim remaining fun upstream => min remaining (limit * upstream)
  else 0

def budgetedFraction (limit : PoolAccount -> Option ℕ) (left : PoolAccount -> ℚ -> ℚ) (rows : List PoolAccount) :
  Except String (Option ℚ) :=
  let sums := budgetSums limit left rows
  if 0 < sums.1 then do
    let fraction <- quotient sums.2 sums.1
    return some (max 0 (min 1 fraction))
  else .ok none

def unbudgetedFraction (upstream : PoolAccount -> Option ℚ) (rows : List PoolAccount) : Except String (Option ℚ) :=
  let values := rows.map upstream
  if values.any Option.isNone then .ok none
  else do
    let fraction <- quotient values.reduceOption.sum rows.length
    return some fraction

def fractionsFromAccounts (pool : Pool) (rows : List PoolAccount) (now : ℚ) (family : Option String) :
  Except String (Option ℚ × Option ℚ) :=
  let active := rows.filter (·.status = .active)
  if active.isEmpty then .ok (some 0, some 0)
  else do
    let window <- budgetedFraction PoolAccount.windowLimit
      (fun row => leftOf (usable pool row now family) (current row.toAccount now).1 (upstreamCapacity pool row now family).1) active
    let weekly <-
      if active.any (fun row => row.weeklyLimit.isNone && usable pool row now family) then
        unbudgetedFraction (fun row => if usable pool row now family then (upstreamCapacity pool row now family).2 else some 0)
          (active.filter (·.weeklyLimit.isNone))
      else
        budgetedFraction PoolAccount.weeklyLimit
          (fun row => leftOf (usable pool row now family) (current row.toAccount now).2 (upstreamCapacity pool row now family).2)
          active
    if active.any (usable pool · now family) then return (window, weekly)
    else return (some 0, some 0)

/-- `left`, inside `accounts_in_order`. -/
def leftInOrder (pool : Pool) (row : PoolAccount) (now : ℚ) (family : Option String) : Except String ℚ :=
  match row.windowLimit with
  | none => .error "float() argument must be a string or a real number, not 'NoneType'"
  | some limit => do
      let used <- quotient (current row.toAccount now).1 limit
      let upstream := upstreamCapacity pool row now family
      return [upstream.1, upstream.2].reduceOption.foldl min (1 - used)

/-- What `accounts_in_order` sorts by. -/
structure OrderKey where
  priority : ℤ
  left : ℚ
  id : ℕ

def OrderKey.le (first second : OrderKey) : Prop :=
  first.priority < second.priority \/ first.priority = second.priority /\
    (first.left < second.left \/ first.left = second.left /\ first.id <= second.id)

instance (first second : OrderKey) : Decidable (first.le second) := by
  unfold OrderKey.le
  infer_instance

section

variable (pool : Pool) (exclude : List ℕ) (now : ℚ) (family : Option String)

/-- The rows that `accounts_in_order` sorts. -/
def Pool.candidates : List PoolAccount :=
  pool.listAccounts.filter (fun row =>
    (row.id ∉ exclude) && usable pool row now family && !pool.leases.any (Lease.unexpired row.id now))

def accountsInOrder : Except String (List PoolAccount) := do
  let keyed <- (pool.candidates exclude now family).mapM fun row => do
    let left <- leftInOrder pool row now family
    return (({ priority := -row.priority, left := -left, id := row.id } : OrderKey), row)
  return (keyed.insertionSort fun first second => first.1.le second.1).map Prod.snd

end

end BananaChat.Subscriptions.Pooled
