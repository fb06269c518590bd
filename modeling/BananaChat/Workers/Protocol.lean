import BananaChat.Workers.Jobs

namespace BananaChat.Workers

open Foundation

/-!
# What workers and administrators ask of the pool

Each function is one transaction: it takes the tables and gives them back, with its reply.
-/

def maxChunkBytes : ℕ := 16 * 1024

def maxChunkSeq : ℤ := 1000000

def userFaultSeconds : ℚ := 1800

def requestFaultAccountsLimit : ℕ := 3

def maxRequeues : ℕ := 3

def pauseSeconds : ℕ := 60

def pauseMaxSeconds : ℕ := 3600

def purgeAfterSeconds : ℚ := 3600

def Job.lastSeen (job : Job) : ℚ := ((job.heartbeatAt.filter (· ≠ 0)).or job.claimedAt).getD 0

def leaseExpired (config : PoolConfig) (now : ℚ) (job : Job) : Bool :=
  (config.leaseSeconds < now - job.lastSeen) ||
    ((job.nextChunkSeq = 0) && job.claimedAt.any (config.firstTokenTimeout < now - ·))

def paused (worker : Option WorkerNode) (now : ℚ) : Bool := now < ((worker.bind WorkerNode.cooldownUntil).getD 0)

def penalize (workerId : Option ℕ) (now : ℚ) (tables : Tables) : Tables :=
  match workerId.bind tables.getWorker with
  | none => tables
  | some worker =>
    let strikes := worker.strikes + 1
    pause worker.id strikes (now + (min pauseMaxSeconds (pauseSeconds * 2 ^ min (strikes - 1) 16) : ℕ)) tables

def misbehaved (jobId : ℕ) (workerId : Option ℕ) (now : ℚ) (tables : Tables) : Tables :=
  penalize workerId now (setFault jobId .worker tables)

def blame (job : Job) (now : ℚ) (tables : Tables) : Tables :=
  if job.requestedBy.any (fun account => accountFaultSince account (now - userFaultSeconds) job.id tables) then
    setFault job.id .request tables
  else misbehaved job.id job.workerId now tables

def leaseRanOut (job : Job) (moment : Moment) (tables : Tables) : Tables :=
  if job.lastSeen < moment.serverStarted then tables else blame job moment.now tables

def requestFaultsAddUp (job : Job) (workerId : ℕ) (now : ℚ) (tables : Tables) : Tables :=
  if job.requestedBy.isSome && (requestFaultAccountsLimit <= requestFaultAccounts workerId (now - userFaultSeconds) tables)
  then penalize (some workerId) now tables
  else tables

/-- `_requeue`: the tables, and whether the job went back to the pool. -/
def requeueJob (job : Job) (now : ℚ) (tables : Tables) : Tables × Bool :=
  if maxRequeues <= job.requeues then
    (finish JobStatus.active job.id now (.failing .failed "No worker kept the job.") tables, false)
  else (requeue job.id now tables, (0 < Rows.affected (Job.returnable job.id) tables.jobs))

/-- The loop of `heartbeat`: jobs the worker has not started answering. -/
def returnUnstarted (now : ℚ) (jobs : List Job) (tables : Tables) : Tables :=
  jobs.foldl (fun tables job => if job.nextChunkSeq = 0 then (requeueJob job now tables).1 else tables) tables

section

variable (workerId : ℕ) (now : ℚ)

/-- `heartbeat`: the tables, and `job_stop`. -/
def heartbeat (report : Report) (jobId : Option ℕ) (tables : Tables) : Tables × Bool :=
  let recorded := recordHeartbeat workerId now report tables
  let returned :=
    if report.status ≠ .online \/ report.activityState = some .gaming then
      returnUnstarted now (activeJobsForWorker workerId recorded) recorded
    else recorded
  let renewed := renewLease workerId now returned
  let jobStop := jobId.any fun jobId =>
    match renewed.getJob jobId with
    | none => true
    | some job => !job.heldBy workerId || job.stopRequested
  (renewed, jobStop)

/-- One turn of the loop of `claim`: a job that the worker still holds. -/
def abandon (tables : Tables) (job : Job) : Tables :=
  if job.nextChunkSeq = 0 then (requeueJob job now tables).1
  else
    let ended := finish JobStatus.live job.id now (.failing .failed "The worker abandoned the job.") tables
    if finishes JobStatus.live job.id tables then misbehaved job.id (some workerId) now ended else ended

/-- The loop of `claim`. -/
def abandonAll (tables : Tables) : Tables := (activeJobsForWorker workerId tables).foldl (abandon workerId now) tables

end

section

variable (asking : Asking) (now : ℚ) (place : Bool) (tables : Tables)

/-- What `claim` does once the worker holds nothing; `place` says whether
`reserve` found a place to send the reply from. -/
def claimNext : Tables × Option Job :=
  if paused (tables.getWorker asking.workerId) now then (tables, none)
  else
    match nextPending asking (now - userFaultSeconds) tables with
    | none => (tables, none)
    | some job =>
      if place then
        (setClaimed job.id asking.workerId now tables,
          if 0 < Rows.affected (Job.claimable job.id) tables.jobs then some job else none)
      else (tables, none)

/-- The transaction of `claim`; none is `WorkerDisabled`. -/
def claim : Option (Tables × Option Job) :=
  match tables.getWorker asking.workerId with
  | none => none
  | some worker =>
    if worker.status = .disabled then none
    else some (claimNext asking now place (abandonAll asking.workerId now tables))

end

/-- What a worker is answered: a malformed request, a job it does not hold, or
`ok` and `stop`. -/
inductive Reply
  | invalid (message : String)
  | notFound
  | answered (ok stop : Bool)

section

variable (config : PoolConfig)

def owned (moment : Moment) (workerId : ℕ) (job : Job) (tables : Tables) : Tables × Bool :=
  if !job.heldBy workerId || job.stopRequested then (tables, false)
  else if leaseExpired config moment.now job then
    let ended := finish JobStatus.live job.id moment.now (.failing .timeout "The worker stopped responding.") tables
    (if finishes JobStatus.live job.id tables then leaseRanOut job moment ended else ended, false)
  else (tables, true)

/-- `_load_owned`; none is `JobNotFound`. -/
def loadOwned (workerId jobId : ℕ) (tables : Tables) : Option Job :=
  (tables.getJob jobId).filter (·.workerId = some workerId)

structure ChunkBody where
  seq : ℤ
  content : String
  thinking : String
  done : Bool

def ChunkBody.size (body : ChunkBody) : ℕ := utf8Length body.content + utf8Length body.thinking

def breakOff (jobId workerId : ℕ) (now : ℚ) (error : String) (tables : Tables) : Tables × Reply :=
  (misbehaved jobId (some workerId) now (finish JobStatus.live jobId now (.failing .failed error) tables), .answered false true)

def retryChunk (workerId : ℕ) (now : ℚ) (job : Job) (body : ChunkBody) (tables : Tables) : Tables × Reply :=
  match chunkAt job.id body.seq.toNat tables with
  | none => (renewLease workerId now tables, .answered true false)
  | some stored =>
    if stored.content = body.content /\ stored.done = body.done /\ stored.thinking = body.thinking then
      (renewLease workerId now tables, .answered true false)
    else breakOff job.id workerId now "The worker sent conflicting chunks." tables

def budget (job : Job) : ℤ := (config.chatMaxResponseBytes : ℤ) - job.streamBytes

/-- What is kept of a chunk, with whether it ends the answer: all of it, or what
fits. -/
def kept (job : Job) (body : ChunkBody) : ChunkBody × Bool :=
  if budget config job < body.size then
    let thinking := truncateUtf8 body.thinking (budget config job)
    ({ seq := body.seq
       content := truncateUtf8 body.content (budget config job - utf8Length thinking)
       thinking := thinking
       done := true },
      true)
  else (body, false)

def ChunkBody.row (body : ChunkBody) (jobId : ℕ) : ChunkRow :=
  { jobId := jobId
    seq := body.seq.toNat
    content := body.content
    thinking := body.thinking
    done := body.done }

def lengthEnding : Ending where
  status := .done
  error := none
  tokensIn := 0
  tokensOut := 0
  finishReason := "length"

/-- Store a chunk: `insert_chunk`, `advance`, and the end where it was cut. -/
def storeChunk (now : ℚ) (job : Job) (body : ChunkBody) (tables : Tables) : Tables × Reply :=
  let stored := kept config job body
  let advanced := advance job.id stored.1.size now (insertChunk (stored.1.row job.id) tables)
  if stored.2 then (finish JobStatus.active job.id now lengthEnding advanced, .answered true true)
  else (advanced, .answered true false)

def lastChunk (job : Job) (tables : Tables) : Option ChunkRow :=
  if job.nextChunkSeq = 0 then none else chunkAt job.id (job.nextChunkSeq - 1) tables

/-- `submit_chunk` for a job that its worker holds. -/
def takeChunk (workerId : ℕ) (now : ℚ) (job : Job) (body : ChunkBody) (tables : Tables) :
  Tables × Reply :=
  if body.seq < job.nextChunkSeq then retryChunk workerId now job body tables
  else if ((job.nextChunkSeq : ℤ) < body.seq) || (lastChunk job tables).any ChunkRow.done then
    breakOff job.id workerId now "The worker sent chunks out of order." tables
  else storeChunk config now job body tables

/-- `submit_chunk`: `now` is read before the transaction, `moment` by `_owned`. -/
def submitChunk (now : ℚ) (moment : Moment) (workerId jobId : ℕ) (body : ChunkBody) (tables : Tables) :
  Tables × Reply :=
  if body.seq < 0 \/ maxChunkSeq <= body.seq then (tables, .invalid "Invalid chunk sequence.")
  else if maxChunkBytes < body.size then (tables, .invalid "The chunk is too large.")
  else
    match loadOwned workerId jobId tables with
    | none => (tables, .notFound)
    | some job =>
      let checked := owned config moment workerId job tables
      if checked.2 then takeChunk config workerId now job body checked.1 else (checked.1, .answered false true)

structure CompleteBody where
  tokensIn : Option ℤ
  tokensOut : Option ℤ
  finishReason : Option String

/-- `_count`; none is `InvalidRequest`. -/
def count (value : Option ℤ) : Option ℕ :=
  match value with
  | none => some 0
  | some value => if 0 <= value /\ value <= 2 ^ 31 - 1 then some value.toNat else none

def answerTokenAllowance : ℕ := 16

def CompleteBody.reason (body : CompleteBody) : String := (body.finishReason.filter (· ≠ "")).getD "stop"

/-- `complete` for a job that its worker holds. -/
def completeJob (workerId : ℕ) (now : ℚ) (job : Job) (tokensIn tokensOut : ℕ) (reason : String)
  (tables : Tables) : Tables × Reply :=
  if (lastChunk job tables).any ChunkRow.done then
    let ending : Ending :=
      { status := .done
        error := none
        tokensIn := min tokensIn (config.promptTokenCap job.messages)
        tokensOut := min tokensOut (job.streamBytes + answerTokenAllowance)
        finishReason := if reason = "stop" \/ reason = "length" then reason else "stop" }
    (clearPause workerId (finish JobStatus.active job.id now ending tables), .answered true false)
  else breakOff job.id workerId now "The worker ended without a completion marker." tables

/-- `complete`, with its clock readings as those of `submit_chunk`. -/
def complete (now : ℚ) (moment : Moment) (workerId jobId : ℕ) (body : CompleteBody) (tables : Tables) :
  Tables × Reply :=
  match count body.tokensIn, count body.tokensOut with
  | none, _ => (tables, .invalid "Invalid tokens_in.")
  | some _, none => (tables, .invalid "Invalid tokens_out.")
  | some tokensIn, some tokensOut =>
    if 32 < body.reason.length then (tables, .invalid "Invalid finish_reason.")
    else
      match loadOwned workerId jobId tables with
      | none => (tables, .notFound)
      | some job =>
        if job.status = .done then (tables, .answered true false)
        else
          let checked := owned config moment workerId job tables
          if checked.2 then completeJob config workerId now job tokensIn tokensOut body.reason checked.1
          else (checked.1, .answered false true)

structure FailBody where
  error : String
  requeue : Bool

/-- `str.isspace` of a character. -/
def isSpace (letter : Char) : Bool :=
  [(0x9, 0xd), (0x1c, 0x20), (0x85, 0x85), (0xa0, 0xa0), (0x1680, 0x1680), (0x2000, 0x200a), (0x2028, 0x2029),
    (0x202f, 0x202f), (0x205f, 0x205f), (0x3000, 0x3000)].any
    (fun range => range.1 <= letter.toNat /\ letter.toNat <= range.2)

/-- `error.strip().lower() == "deferred"`. -/
def deferred (error : String) : Bool :=
  (((error.toList.dropWhile isSpace).reverse.dropWhile isSpace).reverse).map Char.toLower = "deferred".toList

def printableLine (printable : Char -> Bool) (text : String) : String :=
  let letters := text.toList.map (fun letter => if printable letter then letter else ' ')
  " ".intercalate (((letters.splitOnP isSpace).filter (!·.isEmpty)).map String.ofList)

def failMessage (line : String) : String :=
  if line = "" then "The worker failed." else String.ofList (line.toList.take 500)

def failJob (workerId : ℕ) (now : ℚ) (job : Job) (error : String) (tables : Tables) : Tables :=
  let message := printableLine config.printable error
  let ended := finish JobStatus.live job.id now (.failing .failed (failMessage message)) tables
  if finishes JobStatus.live job.id tables && !job.stopRequested then
    if config.requestFault message job.messages then
      requestFaultsAddUp job workerId now (setFault job.id .request ended)
    else blame job now ended
  else ended

def fail (now : ℚ) (workerId jobId : ℕ) (body : FailBody) (tables : Tables) : Tables × Reply :=
  match loadOwned workerId jobId tables with
  | none => (tables, .notFound)
  | some job =>
    if !job.status.active then (tables, .answered false true)
    else if (body.requeue || deferred body.error) && (job.nextChunkSeq = 0) && !job.stopRequested then
      ((requeueJob job now tables).1, .answered true true)
    else (failJob config workerId now job body.error tables, .answered true true)

end

def registerWorker (workerId : ℕ) (tables : Tables) : Tables :=
  { tables with
    workers := tables.workers ++ [
      { id := workerId
        status := .offline
        lastHeartbeat := none
        activityState := none
        models := []
        strikes := 0
        cooldownUntil := none }] }

def setEnabled (workerId : ℕ) (now : ℚ) (enabled : Bool) (tables : Tables) : Tables :=
  if (tables.getWorker workerId).isNone then tables
  else if enabled then clearPause workerId (setStatus workerId .offline tables)
  else finishWorkerJobs workerId "The worker was disabled." now (setStatus workerId .disabled tables)

def deleteWorker (workerId : ℕ) (now : ℚ) (tables : Tables) : Tables :=
  if (tables.getWorker workerId).isNone then tables
  else deleteWorkerRow workerId (finishWorkerJobs workerId "The worker was removed." now tables)

section

variable (config : PoolConfig) (moment : Moment) (tables : Tables)

/-- One turn of the loop of `maintain`. -/
def expireLease (job : Job) : Tables :=
  if leaseExpired config moment.now job && finishes JobStatus.active job.id tables then
    leaseRanOut job moment
      (finish JobStatus.active job.id moment.now (.failing .timeout "The worker stopped responding.") tables)
  else tables

/-- The first transaction of `maintain`. -/
def expireJobs : Tables :=
  let waited := expirePending (moment.now - max 120 (config.workerClaimTimeout * 3)) moment.now tables
  let stalled := (activeJobs waited).foldl (expireLease config moment) waited
  expireCreatedBefore (moment.now - (config.generationTimeout + 120)) moment.now stalled

end

/-- The second transaction of `maintain`. -/
def forgetJobs (now : ℚ) (tables : Tables) : Tables :=
  deleteTerminalBefore (now - purgeAfterSeconds) (deleteOrphanChunks (now - 600) (scrubTerminal tables))

end BananaChat.Workers
