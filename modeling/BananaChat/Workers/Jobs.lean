import Mathlib.Data.List.MinMax
import Mathlib.Data.List.Dedup
import Mathlib.Algebra.Order.Ring.Rat
import BananaChat.Foundation.Rows

namespace BananaChat.Workers

open Foundation Rows

/-!
# Worker jobs and their chunks

A request that goes to the worker pool is a row of `worker_jobs`; what its worker answers waits in
`worker_job_chunks` until the request's relay has sent it.
-/

inductive JobStatus
  | pending
  | claimed
  | streaming
  | done
  | failed
  | timeout
deriving DecidableEq

namespace JobStatus

def active : JobStatus -> Bool
  | .claimed => true
  | .streaming => true
  | _ => false

def live : JobStatus -> Bool
  | .pending => true
  | status => status.active

def terminal : JobStatus -> Bool
  | .done => true
  | .failed => true
  | .timeout => true
  | _ => false

/-- `('pending',)`. -/
def waiting : JobStatus -> Bool
  | .pending => true
  | _ => false

end JobStatus

inductive Fault
  | worker
  | request
deriving DecidableEq

/-- A row of `worker_jobs`.  `messages` and `options` are JSON texts, and `think`
is the reasoning asked for. -/
structure Job where
  id : ℕ
  workerId : Option ℕ
  modelName : String
  messages : String
  options : Option String
  status : JobStatus
  priority : ℤ
  stopRequested : Bool
  createdAt : ℚ
  claimedAt : Option ℚ
  doneAt : Option ℚ
  heartbeatAt : Option ℚ
  tokensIn : ℕ
  tokensOut : ℕ
  errorMessage : Option String
  streamBytes : ℕ
  nextChunkSeq : ℕ
  finishReason : String
  requeues : ℕ
  deferredBy : Option ℕ
  requestedBy : Option ℕ
  fault : Option Fault
  think : Option String
deriving DecidableEq

/-- A row of `worker_job_chunks`, less the time nothing reads. -/
structure ChunkRow where
  jobId : ℕ
  seq : ℕ
  content : String
  thinking : String
  done : Bool
deriving DecidableEq

inductive WorkerStatus
  | online
  | busy
  | offline
  | disabled
deriving DecidableEq

/-- `ACTIVITY_STATES`. -/
inductive Activity
  | idle
  | light
  | active
  | gaming
deriving DecidableEq

/-- The columns of `worker_nodes` that decide who gets a job. -/
structure WorkerNode where
  id : ℕ
  status : WorkerStatus
  lastHeartbeat : Option ℚ
  activityState : Option Activity
  models : List String
  strikes : ℕ
  cooldownUntil : Option ℚ
deriving DecidableEq

structure Tables where
  workers : List WorkerNode
  jobs : List Job
  chunks : List ChunkRow
deriving DecidableEq

/-- The settings, and what the rules about texts say: `requestFault` is
`_request_fault` of a message and the job's stored messages, `promptTokenCap` is
`prompt_token_cap`, `printable` is `str.isprintable` of a character. -/
structure PoolConfig where
  leaseSeconds : ℚ
  firstTokenTimeout : ℚ
  workerClaimTimeout : ℚ
  generationTimeout : ℚ
  chatMaxResponseBytes : ℕ
  requestFault : String -> String -> Bool
  promptTokenCap : String -> ℕ
  printable : Char -> Bool

/-- `time.time()`, and `_SERVER_STARTED` of the process that reads it. -/
structure Moment where
  now : ℚ
  serverStarted : ℚ

/-- `len(text.encode("utf-8"))`. -/
def utf8Length (text : String) : ℕ := (text.toList.map Char.utf8Size).sum

def fitting : List Char -> ℕ -> List Char
  | [], _ => []
  | letter :: rest, limit =>
    if letter.utf8Size <= limit then letter :: fitting rest (limit - letter.utf8Size) else []

/-- `_truncate_utf8`: a character cut in the middle is dropped. -/
def truncateUtf8 (text : String) (limit : ℤ) : String := String.ofList (fitting text.toList limit.toNat)

theorem fitting_size (letters : List Char) (limit : ℕ) : ((fitting letters limit).map Char.utf8Size).sum <= limit := by
  induction letters generalizing limit with
  | nil => exact Nat.zero_le limit
  | cons letter rest ih =>
    unfold fitting
    by_cases fits : letter.utf8Size <= limit
    · rw [if_pos fits, List.map_cons, List.sum_cons]
      have rested := ih (limit - letter.utf8Size)
      omega
    · rw [if_neg fits]
      exact Nat.zero_le limit

theorem utf8Length_truncateUtf8 (text : String) (limit : ℤ) : utf8Length (truncateUtf8 text limit) <= limit.toNat := by
  unfold utf8Length truncateUtf8
  rw [String.toList_ofList]
  exact fitting_size text.toList limit.toNat

namespace Tables

def getJob (tables : Tables) (jobId : ℕ) : Option Job := tables.jobs.find? (·.id = jobId)

/-- `get`, of a worker. -/
def getWorker (tables : Tables) (workerId : ℕ) : Option WorkerNode := tables.workers.find? (·.id = workerId)

/-- `UPDATE worker_jobs SET ... WHERE id=? AND status IN (...)`. -/
def updateJob (only : JobStatus -> Bool) (jobId : ℕ) (change : Job -> Job) (tables : Tables) : Tables :=
  { tables with jobs := updateWhere (fun job => (job.id = jobId) && only job.status) change tables.jobs }

/-- `UPDATE worker_nodes SET ... WHERE id=?`. -/
def updateWorker (workerId : ℕ) (change : WorkerNode -> WorkerNode) (tables : Tables) : Tables :=
  { tables with
    workers := updateWhere (·.id = workerId) change tables.workers }

end Tables

/-- What `insert_job` is given. -/
structure NewJob where
  modelName : String
  messages : String
  options : Option String
  priority : ℤ
  requestedBy : Option ℕ
  think : Option String

/-- The row of `insert_job`. -/
def NewJob.row (new : NewJob) (jobId : ℕ) (now : ℚ) : Job :=
  { id := jobId
    workerId := none
    modelName := new.modelName
    messages := new.messages
    options := new.options
    status := .pending
    priority := new.priority
    stopRequested := false
    createdAt := now
    claimedAt := none
    doneAt := none
    heartbeatAt := some now
    tokensIn := 0
    tokensOut := 0
    errorMessage := none
    streamBytes := 0
    nextChunkSeq := 0
    finishReason := "stop"
    requeues := 0
    deferredBy := none
    requestedBy := new.requestedBy
    fault := none
    think := new.think }

def insertJob (new : NewJob) (jobId : ℕ) (now : ℚ) (tables : Tables) : Tables :=
  { tables with jobs := tables.jobs ++ [new.row jobId now] }

def setFault (jobId : ℕ) (fault : Fault) : Tables -> Tables :=
  Tables.updateJob (fun _ => true) jobId (fun job => { job with fault := some fault })

/-- The values `finish` stores; `Ending.failing` has the defaults. -/
structure Ending where
  status : JobStatus
  error : Option String
  tokensIn : ℕ
  tokensOut : ℕ
  finishReason : String

def Ending.failing (status : JobStatus) (error : String) : Ending where
  status := status
  error := some error
  tokensIn := 0
  tokensOut := 0
  finishReason := "stop"

/-- The row after `finish`. -/
def Job.finished (now : ℚ) (ending : Ending) (job : Job) : Job :=
  { job with
    status := ending.status
    stopRequested := ending.status ≠ .done
    doneAt := some now
    errorMessage := ending.error
    tokensIn := ending.tokensIn
    tokensOut := ending.tokensOut
    finishReason := ending.finishReason
    messages := "[]"
    options := none }

def finish (only : JobStatus -> Bool) (jobId : ℕ) (now : ℚ) (ending : Ending) : Tables -> Tables :=
  Tables.updateJob only jobId (Job.finished now ending)

/-- `finish` changed its job. -/
def finishes (only : JobStatus -> Bool) (jobId : ℕ) (tables : Tables) : Bool :=
  0 < affected (fun job => (job.id = jobId) && only job.status) tables.jobs

def Job.expired (now : ℚ) (status : JobStatus) (error : String) (job : Job) : Job :=
  { job with
    status := status
    stopRequested := true
    doneAt := some now
    errorMessage := some error
    messages := "[]"
    options := none }

def Job.heldBy (workerId : ℕ) (job : Job) : Bool := job.status.active && (job.workerId = some workerId)

def finishWorkerJobs (workerId : ℕ) (error : String) (now : ℚ) (tables : Tables) : Tables :=
  { tables with jobs := updateWhere (Job.heldBy workerId) (Job.expired now .failed error) tables.jobs }

/-- The row after `set_claimed`. -/
def Job.claimedBy (workerId : ℕ) (now : ℚ) (job : Job) : Job :=
  { job with
    status := .claimed
    workerId := some workerId
    claimedAt := some now
    heartbeatAt := some now }

/-- `id=? AND status='pending' AND stop_requested=0`. -/
def Job.claimable (jobId : ℕ) (job : Job) : Bool := (job.id = jobId) && job.status.waiting && !job.stopRequested

def setClaimed (jobId workerId : ℕ) (now : ℚ) (tables : Tables) : Tables :=
  { tables with jobs := updateWhere (Job.claimable jobId) (Job.claimedBy workerId now) tables.jobs }

/-- The row after `requeue`. -/
def Job.requeued (now : ℚ) (job : Job) : Job :=
  { job with
    status := .pending
    deferredBy := job.workerId
    workerId := none
    claimedAt := none
    heartbeatAt := some now
    requeues := job.requeues + 1 }

/-- The condition of `requeue`. -/
def Job.returnable (jobId : ℕ) (job : Job) : Bool :=
  (job.id = jobId) && job.status.active && !job.stopRequested && (job.nextChunkSeq = 0)

def requeue (jobId : ℕ) (now : ℚ) (tables : Tables) : Tables :=
  { tables with jobs := updateWhere (Job.returnable jobId) (Job.requeued now) tables.jobs }

def renewLease (workerId : ℕ) (now : ℚ) (tables : Tables) : Tables :=
  { tables with
    jobs := updateWhere (fun job => job.heldBy workerId && !job.stopRequested)
      (fun job => { job with heartbeatAt := some now }) tables.jobs }

/-- The row after `advance`. -/
def Job.advanced (size : ℕ) (now : ℚ) (job : Job) : Job :=
  { job with
    status := .streaming
    heartbeatAt := some now
    streamBytes := job.streamBytes + size
    nextChunkSeq := job.nextChunkSeq + 1 }

def advance (jobId size : ℕ) (now : ℚ) : Tables -> Tables :=
  Tables.updateJob (fun _ => true) jobId (Job.advanced size now)

def expirePending (before now : ℚ) (tables : Tables) : Tables :=
  { tables with
    jobs := updateWhere
      (fun job => job.status.waiting && (∃ seen ∈ job.heartbeatAt, seen < before))
      (Job.expired now .timeout "No worker took the job in time.") tables.jobs }

def expireCreatedBefore (before now : ℚ) (tables : Tables) : Tables :=
  { tables with
    jobs := updateWhere (fun job => job.status.live && (job.createdAt < before))
      (Job.expired now .timeout "The job exceeded the generation time limit.") tables.jobs }

def scrubTerminal (tables : Tables) : Tables :=
  { tables with
    jobs := updateWhere
      (fun job => job.status.terminal && ((job.messages ≠ "[]") || job.options.isSome))
      (fun job =>
        { job with
          messages := "[]"
          options := none })
      tables.jobs }

def Job.endedBefore (before : ℚ) (job : Job) : Bool := job.status.terminal && (job.doneAt.getD job.createdAt < before)

/-- `delete_terminal_before`; the chunks of a deleted job go with it. -/
def deleteTerminalBefore (before : ℚ) (tables : Tables) : Tables :=
  { tables with
    jobs := deleteWhere (Job.endedBefore before) tables.jobs
    chunks := deleteWhere
      (fun chunk => tables.jobs.any fun job => (job.id = chunk.jobId) && job.endedBefore before) tables.chunks }

def activeJobsForWorker (workerId : ℕ) (tables : Tables) : List Job := tables.jobs.filter (Job.heldBy workerId)

def activeJobs (tables : Tables) : List Job := tables.jobs.filter (·.status.active)

/-- `account_fault_since` with `fault='worker'`, another job's. -/
def accountFaultSince (account : ℕ) (since : ℚ) (exclude : ℕ) (tables : Tables) : Bool :=
  tables.jobs.any fun job =>
    decide (job.requestedBy = some account /\ (∃ ended ∈ job.doneAt, since <= ended) /\
      job.fault = some .worker /\ job.id ≠ exclude)

def failedOn (account workerId : ℕ) (since : ℚ) (tables : Tables) : Bool :=
  tables.jobs.any fun job =>
    decide (job.requestedBy = some account /\ (∃ ended ∈ job.doneAt, since <= ended) /\
      job.workerId = some workerId /\ job.fault.isSome)

def lastAnswered (workerId : ℕ) (tables : Tables) : ℚ :=
  ((tables.jobs.filter fun job => job.workerId = some workerId /\ job.status = .done).filterMap Job.doneAt).max?.getD 0

def requestFaultAccounts (workerId : ℕ) (since : ℚ) (tables : Tables) : ℕ :=
  ((tables.jobs.filter (fun job =>
    decide (job.workerId = some workerId /\ job.fault = some .request /\
      (∃ ended ∈ job.doneAt, since <= ended /\ lastAnswered workerId tables < ended)))).filterMap
        Job.requestedBy).dedup.length

/-- What a worker asks for work with: the names it runs, none for any, and
whether its daemon relays reasoning. -/
structure Asking where
  workerId : ℕ
  names : Option (List String)
  reasoning : Bool

section

variable (asking : Asking) (failedSince : ℚ) (tables : Tables)

/-- The condition of `next_pending`. -/
def Job.offered (job : Job) : Bool :=
  job.status.waiting && !job.stopRequested &&
    (asking.reasoning || (job.think = none \/ job.think = some "false" \/ job.think = some "null")) &&
    (job.deferredBy ≠ some asking.workerId) &&
    (job.requestedBy.all (!failedOn · asking.workerId failedSince tables)) &&
    (asking.names.all (job.modelName ∈ ·))

/-- `ORDER BY priority, created_at, id`. -/
def Job.order (job : Job) : ℤ ×ₗ ℚ ×ₗ ℕ := toLex (job.priority, toLex (job.createdAt, job.id))

def nextPending : Option Job := (tables.jobs.filter (Job.offered asking failedSince tables)).argmin Job.order

end

def pause (workerId strikes : ℕ) (pausedUntil : ℚ) : Tables -> Tables :=
  Tables.updateWorker workerId fun worker =>
    { worker with
      strikes := strikes
      cooldownUntil := some pausedUntil }

section

variable (workerId : ℕ)

def clearPause : Tables -> Tables :=
  Tables.updateWorker workerId fun worker =>
    { worker with
      strikes := 0
      cooldownUntil := none }

structure Report where
  status : WorkerStatus
  activityState : Option Activity
  models : Option (List String)

def recordHeartbeat (now : ℚ) (report : Report) : Tables -> Tables :=
  Tables.updateWorker workerId fun worker =>
    if worker.status = .disabled then worker
    else
      { worker with
        status := report.status
        lastHeartbeat := some now
        activityState := report.activityState.or worker.activityState
        models := report.models.getD worker.models }

def touch (now : ℚ) : Tables -> Tables :=
  Tables.updateWorker workerId fun worker =>
    if worker.status = .disabled then worker
    else
      { worker with
        status := .online
        lastHeartbeat := some now }

def setStatus (status : WorkerStatus) : Tables -> Tables :=
  Tables.updateWorker workerId (fun worker => { worker with status := status })

end

def Job.unnamed (job : Job) : Job := { job with workerId := none }

/-- `delete`, of a worker; jobs that name it name none then. -/
def deleteWorkerRow (workerId : ℕ) (tables : Tables) : Tables :=
  { tables with
    workers := deleteWhere (·.id = workerId) tables.workers
    jobs := updateWhere (·.workerId = some workerId) Job.unnamed tables.jobs }

def ChunkRow.named (jobId seq : ℕ) (chunk : ChunkRow) : Bool := chunk.jobId = jobId /\ chunk.seq = seq

/-- `chunk`. -/
def chunkAt (jobId seq : ℕ) (tables : Tables) : Option ChunkRow := tables.chunks.find? (ChunkRow.named jobId seq)

def insertChunk (chunk : ChunkRow) (tables : Tables) : Tables := { tables with chunks := tables.chunks ++ [chunk] }

/-- The `LIMIT` of `chunks_after`. -/
def chunksLimit : ℕ := 256

def chunksAfter (jobId : ℕ) (seq : ℤ) (tables : Tables) : List ChunkRow :=
  ((tables.chunks.filter fun chunk => chunk.jobId = jobId /\ seq < chunk.seq).mergeSort
    (fun left right => left.seq <= right.seq)).take chunksLimit

def deleteChunksBefore (jobId : ℕ) (seq : ℤ) (tables : Tables) : Tables :=
  { tables with chunks := deleteWhere (fun chunk => chunk.jobId = jobId /\ (chunk.seq : ℤ) < seq) tables.chunks }

def deleteChunks (jobId : ℕ) (tables : Tables) : Tables :=
  { tables with chunks := deleteWhere (·.jobId = jobId) tables.chunks }

def deleteOrphanChunks (before : ℚ) (tables : Tables) : Tables :=
  { tables with
    chunks := deleteWhere
      (fun chunk =>
        tables.jobs.any (fun job => (job.id = chunk.jobId) && job.endedBefore before) ||
          tables.jobs.all (·.id ≠ chunk.jobId))
      tables.chunks }

end BananaChat.Workers
