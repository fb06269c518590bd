import Mathlib
import BananaChat.Foundation.Rows
import BananaChat.Limits.Windows

namespace BananaChat.Subscriptions

open Foundation Rows

/-!
# Subscription accounts, their leases and their usage

A subscription account answers one request at a time: the request that holds its row of
`subscription_account_leases` while the row has not expired.
-/

/-- `PROVIDERS`. -/
inductive Provider
  | claude
  | codex
deriving DecidableEq

/-- `STATUSES`. -/
inductive AccountStatus
  | active
  | disabled
  | error
deriving DecidableEq

/-- `QUOTA_SOURCES`: the account's own budgets, or what its provider reports. -/
inductive QuotaSource
  | localBudget
  | reported
deriving DecidableEq

/-- The columns of `subscription_accounts` that a request's operations read or write. -/
structure Account where
  id : ℕ
  provider : Provider
  status : AccountStatus
  cooldownUntil : Option ℤ
  lastError : String
  quotaSource : QuotaSource
  windowUsed : ℕ
  windowResetsAt : Option ℤ
  weeklyUsed : ℕ
  weeklyResetsAt : Option ℤ

/-- A row of `subscription_account_leases`, whose key is the account. -/
structure Lease where
  accountId : ℕ
  leaseId : ℕ
  provider : Provider
  heartbeatAt : ℚ
  expiresAt : ℚ

/-- A row of `subscription_usage`. -/
structure UsageRow where
  leaseId : ℕ
  accountId : ℕ
  provider : Provider
  family : String
  tokensIn : ℕ
  tokensOut : ℕ
  createdEpoch : ℚ

structure Tables where
  accounts : List Account
  leases : List Lease
  usage : List UsageRow

def leaseSeconds : ℚ := 90

def Lease.named (accountId leaseId : ℕ) (lease : Lease) : Bool :=
  lease.accountId = accountId /\ lease.leaseId = leaseId

/-- `account_id=? AND lease_id=? AND expires_at>?`. -/
def Lease.heldBy (accountId leaseId : ℕ) (now : ℚ) (lease : Lease) : Bool :=
  lease.accountId = accountId /\ lease.leaseId = leaseId /\ now < lease.expiresAt

section

variable (accountId : ℕ)

/-- `id=? AND status='active'`. -/
def Account.serving (account : Account) : Bool := account.id = accountId /\ account.status = .active

/-- `id=?`. -/
def Account.named (account : Account) : Bool := account.id = accountId

def Lease.unexpired (now : ℚ) (lease : Lease) : Bool := lease.accountId = accountId /\ now < lease.expiresAt

def leased (now : ℚ) (tables : Tables) : Bool := tables.leases.any (Lease.unexpired accountId now)

end

section

variable (accountId leaseId : ℕ)

/-- `claim`: whether the account was claimed.  The key of lease ids makes the
insertion raise, and then the transaction changes nothing. -/
def claim (provider : Provider) (now : ℚ) (tables : Tables) :
  Except String (Bool × Tables) :=
  let swept := deleteWhere (fun lease => lease.accountId = accountId /\ lease.expiresAt <= now) tables.leases
  let found := tables.accounts.any (fun account => account.serving accountId && (account.provider = provider))
  if found /\ ∀ lease ∈ swept, lease.accountId ≠ accountId then
    if ∃ lease ∈ swept, lease.leaseId = leaseId then
      .error "UNIQUE constraint failed: subscription_account_leases.lease_id"
    else
      .ok (true, { tables with
        leases := swept ++ [{ accountId, leaseId, provider, heartbeatAt := now, expiresAt := now + leaseSeconds }] })
  else
    .ok (false, { tables with leases := swept })

def renew (now : ℚ) (tables : Tables) : Bool × Tables :=
  let selected := fun lease : Lease => lease.heldBy accountId leaseId now && tables.accounts.any (Account.serving accountId)
  let change := fun lease : Lease => { lease with heartbeatAt := now, expiresAt := now + leaseSeconds }
  ((affected selected tables.leases = 1), { tables with leases := updateWhere selected change tables.leases })

def owns (now : ℚ) (tables : Tables) : Bool :=
  tables.leases.any (fun lease => lease.heldBy accountId leaseId now && tables.accounts.any (Account.serving accountId))

def release (tables : Tables) : Tables :=
  { tables with leases := deleteWhere (Lease.named accountId leaseId) tables.leases }

end

def quarantineError : String := "Transport shutdown failed; verify the account before enabling it."

def quarantine (accountId leaseId : ℕ) (now : ℚ) (tables : Tables) : Bool × Tables :=
  let selected := fun account : Account => account.named accountId && tables.leases.any (Lease.heldBy accountId leaseId now)
  let change := fun account : Account => { account with status := .disabled, lastError := quarantineError }
  ((affected selected tables.accounts = 1), { tables with accounts := updateWhere selected change tables.accounts })

/-- `rest`, of the storage: with a lease it is an update of the holder only. -/
def rest (accountId : ℕ) (cooldownUntil : ℤ) (error : String) (leaseId : Option ℕ) (now : ℚ) (tables : Tables) :
  Bool × Tables :=
  let selected := fun account : Account => account.named accountId &&
    match leaseId with
    | none => true
    | some lease => tables.leases.any (Lease.heldBy accountId lease now)
  let change := fun account : Account =>
    { account with cooldownUntil := some cooldownUntil, lastError := (error.take 500).toString }
  ((affected selected tables.accounts = 1), { tables with accounts := updateWhere selected change tables.accounts })

def clearCooldown (accountId : ℕ) (tables : Tables) : Tables :=
  let change := fun account : Account => { account with cooldownUntil := none }
  { tables with accounts := updateWhere (Account.named accountId) change tables.accounts }

/-- `update_account(account_id, status=...)`, an administrator's. -/
def updateStatus (accountId : ℕ) (status : AccountStatus) (tables : Tables) : Tables :=
  let change := fun account : Account => { account with status }
  { tables with accounts := updateWhere (Account.named accountId) change tables.accounts }

/-- `insert_usage`: `INSERT OR IGNORE` on the lease. -/
def insertUsage (row : UsageRow) (tables : Tables) : Bool × Tables :=
  if ∃ other ∈ tables.usage, other.leaseId = row.leaseId then
    (false, tables)
  else
    (true, { tables with usage := tables.usage ++ [row] })

def bumpCounters (accountId windowUsed : ℕ) (windowResetsAt : Option ℤ) (weeklyUsed : ℕ) (weeklyResetsAt : Option ℤ)
  (tables : Tables) : Tables :=
  let change := fun account : Account => { account with windowUsed, windowResetsAt, weeklyUsed, weeklyResetsAt }
  { tables with accounts := updateWhere (Account.named accountId) change tables.accounts }

/-- The counter of one period and its end, before an answer is added.  A local
budget starts another period after its end; a reported one is left as reported. -/
def rollOver (source : QuotaSource) (length : ℤ) (used : ℕ) (resetsAt : Option ℤ) (now : ℚ) : ℕ × Option ℤ :=
  match source, resetsAt with
  | .reported, _ => (used, resetsAt)
  | .localBudget, none => (used, some ⌊now + length⌋)
  | .localBudget, some reset => if (reset : ℚ) <= now then (0, some ⌊now + length⌋) else (used, some reset)

/-- `record_usage`, of the service. -/
def recordUsage (accountId : ℕ) (tokensIn tokensOut : ℤ) (provider : Provider) (family : String) (leaseId : Option ℕ)
  (now : ℚ) (tables : Tables) : Except String Tables :=
  match tables.accounts.find? (·.id = accountId) with
  | none => .error "The subscription account was removed before usage could be recorded."
  | some row =>
    if row.provider ≠ provider then
      .error "The usage belongs to another subscription provider."
    else
      let total := tokensIn.toNat + tokensOut.toNat
      let inserted := match leaseId with
        | none => (true, tables)
        | some leaseId => insertUsage
            { leaseId, accountId, provider, family, tokensIn := tokensIn.toNat, tokensOut := tokensOut.toNat, createdEpoch := now }
            tables
      if inserted.1 then
        let window := rollOver row.quotaSource Limits.windowSeconds row.windowUsed row.windowResetsAt now
        let weekly := rollOver row.quotaSource Limits.weekSeconds row.weeklyUsed row.weeklyResetsAt now
        .ok (bumpCounters accountId (window.1 + total) window.2 (weekly.1 + total) weekly.2 inserted.2)
      else
        .ok tables

end BananaChat.Subscriptions
