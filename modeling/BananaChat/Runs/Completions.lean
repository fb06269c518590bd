import BananaChat.Credits.Reservations

namespace BananaChat.Runs

open Foundation Credits Rows

/-!
# Leases of API answers

An API or playground answer holds a row of `completion_leases` from its first output on, with the
usage to charge if it ended now.
-/

def leaseSeconds : ℚ := 60

/-- The `LIMIT` of the recovery queries. -/
def recoverLimit : ℕ := 200

/-- The status column of `request_metrics`. -/
inductive MetricStatus
  | ok
  | stopped
  | failed
  | interrupted
  | error

structure RequestMetric where
  requestType : RequestType
  modelId : Option ℕ
  userId : Option ℕ
  tokensIn : ℕ
  tokensOut : ℕ
  durationMs : ℕ
  queueWaitMs : ℕ
  status : MetricStatus
  createdAt : ℤ
  usageEstimated : Bool

structure CompletionLease where
  id : ℕ
  userId : ℕ
  tokenId : Option ℕ
  requestType : RequestType
  modelId : Option ℕ
  tokensIn : ℕ
  tokensOut : ℕ
  queueWaitMs : ℕ
  startedAt : ℚ
  heartbeatAt : ℚ
deriving DecidableEq

structure Store where
  leases : List CompletionLease
  nextLease : ℕ
  reservations : Reservations
  books : Books
  metrics : List RequestMetric

/-- `open_completion`: the tables, and the new lease. -/
def openCompletion (site : Credits.Site) (now : ℚ) (userId : ℕ) (requestType : RequestType) (tokenId modelId : Option ℕ)
  (queueWaitMs : ℤ) (store : Store) : Store × ℕ :=
  let row : CompletionLease :=
    { id := store.nextLease
      userId := userId
      tokenId := tokenId
      requestType := requestType
      modelId := site.existingModel modelId
      tokensIn := 0
      tokensOut := 0
      queueWaitMs := queueWaitMs.toNat
      startedAt := now
      heartbeatAt := now }
  ({ store with leases := store.leases ++ [row], nextLease := store.nextLease + 1 }, store.nextLease)

/-- `checkpoint_completion`: the tables, and whether the lease was still there. -/
def checkpointCompletion (site : Credits.Site) (now : ℚ) (leaseId : ℕ) (modelId : Option ℕ) (tokensIn tokensOut : ℤ)
  (store : Store) : Store × Bool :=
  let selected := fun row : CompletionLease => decide (row.id = leaseId)
  let change := fun row : CompletionLease =>
    { row with
      heartbeatAt := now
      modelId := site.existingModel modelId
      tokensIn := tokensIn.toNat
      tokensOut := tokensOut.toNat }
  ({ store with leases := updateWhere selected change store.leases }, (affected selected store.leases = 1))

/-- `close_completion`: the leases, and whether the lease was still there. -/
def closeCompletion (leaseId : ℕ) (leases : List CompletionLease) : List CompletionLease × Bool :=
  let selected := fun row : CompletionLease => decide (row.id = leaseId)
  (deleteWhere selected leases, (affected selected leases = 1))

def expireCompletion (leaseId : ℕ) (store : Store) : Store :=
  { store with
    leases := updateWhere (·.id = leaseId) (fun row => { row with heartbeatAt := 0 })
      store.leases }

def CompletionLease.stale (now : ℚ) (row : CompletionLease) : Bool := row.heartbeatAt < now - leaseSeconds

section

variable (site : Credits.Site)

def CompletionLease.chargeRequest (row : CompletionLease) : ChargeRequest where
  userId := row.userId
  tokensIn := row.tokensIn
  tokensOut := row.tokensOut
  requestType := row.requestType
  modelId := site.existingModel row.modelId
  tokenId := row.tokenId.filter (· ∈ site.apiTokens)
  usageEstimated := true
  origin := some row.id

def CompletionLease.metric (now : ℚ) (row : CompletionLease) : RequestMetric where
  requestType := row.requestType
  modelId := site.existingModel row.modelId
  userId := some row.userId
  tokensIn := row.tokensIn
  tokensOut := row.tokensOut
  durationMs := ⌊max 0 (max row.heartbeatAt row.startedAt - row.startedAt) * 1000⌋.toNat
  queueWaitMs := row.queueWaitMs
  status := if row.tokensOut = 0 then .error else .stopped
  createdAt := ⌊now⌋
  usageEstimated := true

/-- One turn of the loop of `recover_completions`. -/
def recoverCompletion (now : ℚ) (store : Store) (row : CompletionLease) : Store :=
  let dropped := { store with leases := deleteWhere (·.id = row.id) store.leases }
  match site.user row.userId with
  | none => dropped
  | some _ =>
    { dropped with
      books :=
        if row.tokensIn = 0 /\ row.tokensOut = 0 then dropped.books
        else (charge site now (row.chargeRequest site) dropped.books).1
      metrics := dropped.metrics ++ [row.metric site now] }

/-- `recover_completions`, on the rows its query answered. -/
def recoverCompletions (now : ℚ) (rows : List CompletionLease) (store : Store) : Store :=
  rows.foldl (recoverCompletion site now) store

end

/-- An answer of the recovery query: stale rows of the table, none twice, at
most as many as its limit.  The query has no order, so any of them may come. -/
structure RecoverableRows (now : ℚ) (leases : List CompletionLease) (rows : List CompletionLease) : Prop where
  distinct : (rows.map CompletionLease.id).Nodup
  stored : ∀ row ∈ rows, row ∈ leases
  stale : ∀ row ∈ rows, row.stale now
  limited : rows.length <= recoverLimit

end BananaChat.Runs
