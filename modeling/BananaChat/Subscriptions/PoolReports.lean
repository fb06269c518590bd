import BananaChat.Subscriptions.Fractions

namespace BananaChat.Subscriptions.Pooled

open Foundation

/-!
# Reports about a subscription pool

A reporter answers with one aggregate and an observation of every account.
-/

inductive Scalar
  | null
  | flag (value : Bool)
  | number (value : ℚ)
  | notFinite
  | text (value : String)
  | other
deriving DecidableEq

/-- A value that should be a dictionary; `missing` is `None` or no key at all. -/
inductive Field (Value : Type)
  | missing
  | invalid
  | given (value : Value)

structure RawScope where
  left : Scalar
  resetsAt : Scalar

/-- An observation of an account as the reporter gives it.  A missing key reads as `None`, but a missing
`model_limits` as the empty dictionary. -/
structure RawReport where
  available : Scalar
  source : Scalar
  status : Scalar
  observedAt : Scalar
  windowResetsAt : Scalar
  weeklyResetsAt : Scalar
  windowLeft : Scalar
  weeklyLeft : Scalar
  modelLimits : Field (List (String × Field RawScope))

structure Reported where
  windowLeft : Scalar
  weeklyLeft : Scalar
  accountReports : Field (List (ℕ × Field RawReport))

inductive Answer
  | raised
  | invalid
  | dictionary (reported : Reported)

/-- `_NATIVE_SOURCES`. -/
def nativeSource : Provider -> String
  | .claude => "claude_code"
  | .codex => "codex"

/-- The keys of `STRICTNESS`. -/
def families : Provider -> List String
  | .claude => ["fable", "opus", "sonnet", "haiku"]
  | .codex => ["astra", "sol", "terra", "luna", "gpt"]

def dateMax : ℚ := 253402300799

/-- `_valid_fraction`, with the fraction. -/
def validFraction : Scalar -> Option Fraction
  | .number value => if inside : 0 <= value /\ value <= 1 then some ⟨value, inside⟩ else none
  | _ => none

/-- A fraction, or `None`. -/
def checkedFraction (value : Scalar) : Except String (Option Fraction) :=
  if value = .null then .ok none
  else (validFraction value).elim (.error "Invalid account quota fraction.") fun fraction => .ok (some fraction)

/-- A date, or `None`. -/
def checkedDate (message : String) : Scalar -> Except String (Option ℚ)
  | .null => .ok none
  | .number value => if 0 <= value /\ value <= dateMax then .ok (some value) else .error message
  | _ => .error message

section

variable (provider : Provider)

def checkedSource (value : Scalar) : Except String ReportSource :=
  if value = .text "local" then .ok .localBudget
  else if value = .text "file" then .ok .file
  else if value = .text (nativeSource provider) then .ok .native
  else .error "Invalid account quota source."

def checkedScope (scopes : List (String × Field RawScope)) (family : String) :
  Except String (Option (String × ScopedReport)) :=
  match (scopes.lookup family).getD .missing with
  | .missing => .ok none
  | .invalid => .error "Invalid account model quota."
  | .given scope =>
    match validFraction scope.left with
    | none => .error "Invalid account model quota."
    | some left => do
        let reset <- checkedDate "Invalid account model quota date." scope.resetsAt
        return some (family, ⟨left, reset⟩)

def validatedReport (raw : Field RawReport) : Except String Report :=
  match raw with
  | .missing => .error "Invalid account quota observation."
  | .invalid => .error "Invalid account quota observation."
  | .given report =>
    match report.available with
    | .flag available => do
        let source <- checkedSource provider report.source
        if report.status = .text "stale" /\ available then .error "Stale account quota cannot be available."
        else do
          let status :=
            if report.status = .text "stale" /\ source = .native then ReportStatus.stale
            else if available then .available
            else .unavailable
          let observedAt <- checkedDate "Invalid account quota date." report.observedAt
          let windowResetsAt <- checkedDate "Invalid account quota date." report.windowResetsAt
          let weeklyResetsAt <- checkedDate "Invalid account quota date." report.weeklyResetsAt
          let windowLeft <- checkedFraction report.windowLeft
          let weeklyLeft <- checkedFraction report.weeklyLeft
          let scopes <- match report.modelLimits with
            | .missing => .ok []
            | .invalid => .error "Invalid account model quota."
            | .given scopes => .ok scopes
          let modelLimits <- (families provider).mapM (checkedScope scopes)
          return { available, source, status, observedAt, windowResetsAt, weeklyResetsAt, windowLeft, weeklyLeft,
                   modelLimits := modelLimits.reduceOption }
    | _ => .error "Invalid account quota observation."

def failedReport : Report where
  available := false
  source := .native
  status := .unavailable
  observedAt := none
  windowResetsAt := none
  weeklyResetsAt := none
  windowLeft := none
  weeklyLeft := none
  modelLimits := []

def checkedReport (raw : Field RawReport) : Report :=
  match validatedReport provider raw with
  | .ok report => report
  | .error _ => failedReport

/-- What is stored for an account: its observation, or the last one where that is still fresh and this one
is a failure without a date. -/
def storedReport (raw : Field RawReport) (kept : Option Report) (now : ℚ) : Report :=
  let report := checkedReport provider raw
  if report.available = false /\ report.observedAt = none /\ reportFresh kept now none then kept.getD report else report

def storeAccountReports (reported : Reported) (now : ℚ) (pool : Pool) : Except String Pool :=
  match reported.accountReports with
  | .missing => .ok { pool with reports := none }
  | .invalid => .error "Invalid account quota observations."
  | .given reports =>
    if 200 < reports.length then .error "Invalid account quota observations."
    else .ok
      { pool with
        reports := some (pool.listAccounts.map fun row =>
          (row.id, storedReport provider ((reports.lookup row.id).getD .missing)
            ((pool.reports.getD []).lookup row.id) now)) }

inductive Figure
  | flag
  | number (value : ℚ)
  | notFinite

def tokensMax : ℚ := 1000000000

def tokens (label : String) : Figure -> Except String ℕ
  | .flag => .error (label ++ " must be a number.")
  | .notFinite => .error (label ++ " must be between 0 and 1,000,000,000.")
  | .number value =>
    if 0 <= value /\ value <= tokensMax then
      if value = ⌊value⌋ then .ok ⌊value⌋.toNat else .error (label ++ " must be a whole number.")
    else .error (label ++ " must be between 0 and 1,000,000,000.")

def givenTokens (label : String) : Option Figure -> Except String (Option ℕ)
  | none => .ok none
  | some figure => do
      let amount <- tokens label figure
      return some amount

def givenReset (label : String) : Option (Option ℚ) -> Except String (Option ℤ)
  | none => .ok none
  | some none => .error (label ++ " must be a valid date and time.")
  | some (some moment) => .ok (some ⌊moment⌋)

/-- The arguments of `report_quota`. -/
structure QuotaReport where
  windowUsed : Option Figure
  windowLimit : Option Figure
  windowResetsAt : Option (Option ℚ)
  weeklyUsed : Option Figure
  weeklyLimit : Option Figure
  weeklyResetsAt : Option (Option ℚ)
  error : String

def QuotaReport.reported (report : QuotaReport) : Bool :=
  report.windowUsed.isSome || report.windowLimit.isSome || report.windowResetsAt.isSome || report.weeklyUsed.isSome ||
    report.weeklyLimit.isSome || report.weeklyResetsAt.isSome

def PoolAccount.failed (row : PoolAccount) (error : String) (now : ℚ) : PoolAccount :=
  { row with
    status := if row.status = .disabled then .disabled else .error
    lastError := (error.take 500).toString
    lastCheckedAt := some ⌊now⌋ }

def reportQuota (accountId : ℕ) (report : QuotaReport) (now : ℚ) (pool : Pool) : Except String Pool :=
  match pool.accounts.find? (·.id = accountId) with
  | none => .error "That subscription account does not exist."
  | some _ => do
      let windowUsed <- givenTokens "Window used" report.windowUsed
      let windowLimit <- givenTokens "Window limit" report.windowLimit
      let weeklyUsed <- givenTokens "Weekly used" report.weeklyUsed
      let weeklyLimit <- givenTokens "Weekly limit" report.weeklyLimit
      let windowResetsAt <- givenReset "Window resets at" report.windowResetsAt
      let weeklyResetsAt <- givenReset "Weekly resets at" report.weeklyResetsAt
      let change := fun row : PoolAccount =>
        if report.error ≠ "" then row.failed report.error now
        else
          { row with
            lastError := ""
            lastCheckedAt := some ⌊now⌋
            windowUsed := windowUsed.getD row.windowUsed
            windowLimit := windowLimit <|> row.windowLimit
            windowResetsAt := windowResetsAt <|> row.windowResetsAt
            weeklyUsed := weeklyUsed.getD row.weeklyUsed
            weeklyLimit := weeklyLimit <|> row.weeklyLimit
            weeklyResetsAt := weeklyResetsAt <|> row.weeklyResetsAt
            status := if report.reported /\ row.status = .error then .active else row.status
            quotaSource := if report.reported then .reported else row.quotaSource
            quotaUpdatedAt := if report.reported then some ⌊now⌋ else row.quotaUpdatedAt
            quotaWindowUpdatedAt := if windowUsed.isSome then some ⌊now⌋ else row.quotaWindowUpdatedAt
            quotaWeeklyUpdatedAt := if weeklyUsed.isSome then some ⌊now⌋ else row.quotaWeeklyUpdatedAt }
      return { pool with
        accounts := Rows.updateWhere (·.id = accountId) change pool.accounts
        cache := none }

def poolCacheSeconds : ℚ := 30

def lowered (value : Scalar) (stored : Option ℚ) : Except String (Option ℚ) :=
  if value = .null then .ok stored
  else
    match validFraction value with
    | none => .error "Invalid quota fraction."
    | some fraction => .ok (some (stored.elim fraction.val fun stored => min stored fraction.val))

def loweredBoth (reported : Reported) (stored : Option ℚ × Option ℚ) : Except String (Option ℚ × Option ℚ) := do
  let window <- lowered reported.windowLeft stored.1
  let weekly <- lowered reported.weeklyLeft stored.2
  return (window, weekly)

/-- The first half of `pooled_quota`: what the reporter says, its failure, and the pool with what was stored. -/
def readReporter (answer : Answer) (now : ℚ) (pool : Pool) : Option Reported × Bool × Pool :=
  if pool.reporter then
    match answer with
    | .raised => (none, true, pool)
    | .invalid => (none, true, pool)
    | .dictionary reported =>
      match storeAccountReports provider reported now pool with
      | .error _ => (none, true, pool)
      | .ok stored => (some reported, false, stored)
  else (none, false, pool)

def aggregated (reported : Option Reported) (failed : Bool) (stored : Option ℚ × Option ℚ) : (Option ℚ × Option ℚ) × Bool :=
  match reported with
  | none => (stored, failed)
  | some reported =>
    match loweredBoth reported stored with
    | .error _ => (stored, true)
    | .ok fractions => (fractions, failed)

def withdrawn (chat failed : Bool) (left : Option ℚ × Option ℚ) : Option ℚ × Option ℚ :=
  if chat = false \/ failed then (some 0, some 0) else left

theorem isFraction_lowered {value : Scalar} {stored result : Option ℚ} (inside : IsFraction stored)
  (found : lowered value stored = .ok result) : IsFraction result := by
  unfold lowered at found
  split at found
  · cases found
    exact inside
  · split at found
    · cases found
    · rename_i fraction _
      cases found
      cases stored with
      | none => exact isFraction_some fraction.property.1 fraction.property.2
      | some stored =>
        have bounds := inside stored rfl
        exact isFraction_some (le_min bounds.1 fraction.property.1) ((min_le_left _ _).trans bounds.2)

theorem isFraction_loweredBoth {reported : Reported} {stored result : Option ℚ × Option ℚ}
  (inside : IsFraction stored.1 /\ IsFraction stored.2) (found : loweredBoth reported stored = .ok result) :
  IsFraction result.1 /\ IsFraction result.2 := by
  unfold loweredBoth at found
  cases window : lowered reported.windowLeft stored.1 with
  | error message =>
    rw [window] at found
    cases found
  | ok windowLeft =>
    cases weekly : lowered reported.weeklyLeft stored.2 with
    | error message =>
      rw [window, weekly] at found
      cases found
    | ok weeklyLeft =>
      rw [window, weekly] at found
      cases found
      exact ⟨isFraction_lowered inside.1 window, isFraction_lowered inside.2 weekly⟩

theorem isFraction_aggregated (reported : Option Reported) (failed : Bool) {stored : Option ℚ × Option ℚ}
  (inside : IsFraction stored.1 /\ IsFraction stored.2) :
  IsFraction (aggregated reported failed stored).1.1 /\ IsFraction (aggregated reported failed stored).1.2 := by
  unfold aggregated
  split
  · exact inside
  · split
    · exact inside
    · rename_i found
      exact isFraction_loweredBoth inside found

theorem isFraction_withdrawn (chat failed : Bool) {left : Option ℚ × Option ℚ} (inside : IsFraction left.1 /\ IsFraction left.2) :
  IsFraction (withdrawn chat failed left).1 /\ IsFraction (withdrawn chat failed left).2 := by
  unfold withdrawn
  split
  · exact ⟨isFraction_zero, isFraction_zero⟩
  · exact inside

def cached (monotonic : ℚ) (force : Bool) (pool : Pool) : Option Quota :=
  if force then none
  else pool.cache.bind fun entry => if monotonic - entry.1 < poolCacheSeconds then some entry.2 else none

/-- `pooled_quota`, with the clock reading `now` and the answer of the reporter. -/
def pooledQuota (monotonic now : ℚ) (force : Bool) (answer : Answer) (pool : Pool) :
  Except String (Quota × Pool) :=
  match cached monotonic force pool with
  | some quota => .ok (quota, pool)
  | none =>
    let read := readReporter provider answer now pool
    let stored := read.2.2
    let rows := stored.listAccounts
    match found : fractionsFromAccounts stored rows now none with
    | .error message => .error message
    | .ok fractions =>
      let after := aggregated read.1 read.2.1 fractions
      let left := withdrawn stored.chat after.2 after.1
      let inside := isFraction_withdrawn stored.chat after.2
        (isFraction_aggregated read.1 read.2.1 (fractionsFromAccounts_fraction found))
      let quota : Quota :=
        { windowLeft := left.1
          weeklyLeft := left.2
          accounts := (rows.filter fun row => row.status = .active).length
          usable := (rows.filter fun row => usable stored row now none).length
          busy := (rows.filter fun row => stored.leases.any (Lease.unexpired row.id now)).length
          stale := (rows.filter fun row => !quotaFresh row now || !subscriptionFresh stored row now).length
          reporterError := after.2
          windowFraction := inside.1
          weeklyFraction := inside.2 }
      .ok (quota, { stored with cache := some (monotonic, quota) })

structure Capacity where
  windowLeft : Option ℚ
  weeklyLeft : Option ℚ

structure Descriptor where
  name : String
  family : String
  accountIds : Option (List ℕ)

/-- `discovered_models`. -/
structure Discovery where
  ok : Bool
  models : List Descriptor

def Pool.servers (pool : Pool) (descriptor : Descriptor) : List PoolAccount :=
  pool.listAccounts.filter fun row => descriptor.accountIds.all fun ids => row.id ∈ ids

def offered (discovery : Discovery) (name : String) (pool : Pool) : Option Descriptor :=
  if discovery.ok = false \/ pool.chat = false then none
  else discovery.models.find? fun descriptor => descriptor.name = name

def combined (pooled own : Option ℚ) : Option ℚ :=
  match pooled, own with
  | some pooled, some own => some (min pooled own)
  | _, own => own

/-- `capacity_report` for a subscription model.  The clock is read once by `pooled_quota` and once more for the
accounts of the model. -/
def capacityReport (discovery : Discovery) (name : String) (monotonic now later : ℚ) (answer : Answer)
  (pool : Pool) : Except String (Capacity × Pool) :=
  match offered discovery name pool with
  | none => .ok (⟨some 0, some 0⟩, pool)
  | some descriptor => do
      let (quota, stored) <- pooledQuota provider monotonic now false answer pool
      let own <- fractionsFromAccounts stored (stored.servers descriptor) later (some descriptor.family)
      return (⟨combined quota.windowLeft own.1, combined quota.weeklyLeft own.2⟩, stored)

end

end BananaChat.Subscriptions.Pooled
