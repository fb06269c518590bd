import Mathlib.Data.List.MinMax
import BananaChat.Foundation.Machine
import BananaChat.Foundation.Rows

namespace BananaChat.Downloads

open Foundation Rows

/-!
# Model download jobs

`model_pull_jobs` holds a row for every download. A claim gives the job a token, and what its
run writes afterwards names that token.
-/

inductive Backend
  | ollama
  | comfyui
deriving DecidableEq

def latest : String := ":latest"

/-- `name.rsplit("/", 1)[-1]`. -/
def lastSegment (name : List Char) : List Char := (name.reverse.takeWhile (· ≠ '/')).reverse

def canonicalOllamaName (name : String) : String := if ':' ∈ lastSegment name.toList then name else name ++ latest

/-- `name.removesuffix(":latest")`. -/
def withoutLatest (name : String) : String :=
  if latest.toList.isSuffixOf name.toList then String.ofList (name.toList.take (name.toList.length - latest.toList.length))
  else name

def names (name : String) : Backend -> String × String
  | .ollama => (canonicalOllamaName name, withoutLatest (canonicalOllamaName name))
  | .comfyui => (name, name)

def canonicalName (name : String) : Backend -> String
  | .ollama => canonicalOllamaName name
  | .comfyui => name

inductive Status
  | queued
  | pulling
  | done
  | failed
  | cancelled
deriving DecidableEq

namespace Status

def active : Status -> Bool
  | .queued => true
  | .pulling => true
  | _ => false

def finished (status : Status) : Bool := !status.active

end Status

structure Job where
  id : ℕ
  name : String
  backend : Backend
  status : Status
  paused : Bool
  queuePosition : ℕ
  attempts : ℕ
  nextAttemptAt : Option ℕ
  progressPct : ℕ
  progressDetail : String
  bytesCompleted : Option ℕ
  bytesTotal : Option ℕ
  progressAt : Option ℕ
  createdAt : ℕ
  startedAt : Option ℕ
  finishedAt : Option ℕ
  errorMessage : Option String
  lastError : Option String
  claimToken : Option ℕ
  digest : Option String
  remoteJobId : Option String
  cleanupPartial : Bool

/-- The jobs, and the names that discovery must not enroll (or may again). -/
structure Tables where
  jobs : List Job
  discovery : List (String × Bool)
  nextId : ℕ

def clip (text : String) : String := String.ofList (text.toList.take 500)

def getJob (jobId : ℕ) (tables : Tables) : Option Job := tables.jobs.find? (·.id = jobId)

section

variable (name : String) (backend : Backend)

def activeFor (tables : Tables) : Bool :=
  tables.jobs.any (fun job => (job.backend = backend) &&
    ((job.name = (names name backend).1) || (job.name = (names name backend).2)) && job.status.active)

def newJob (now : ℕ) (tables : Tables) : Job :=
  { id := tables.nextId, name, backend, status := .queued, paused := false,
    queuePosition := ((tables.jobs.map Job.queuePosition).max?).getD 0 + 1, attempts := 0, nextAttemptAt := none,
    progressPct := 0, progressDetail := "", bytesCompleted := none, bytesTotal := none, progressAt := none, createdAt := now,
    startedAt := none, finishedAt := none, errorMessage := none, lastError := none, claimToken := none, digest := none,
    remoteJobId := none, cleanupPartial := false }

/-- `enqueue`; a second active job of a model is refused. -/
def enqueue (now : ℕ) (tables : Tables) : Option Tables :=
  let canonical := if backend = .ollama then canonicalOllamaName name else name
  if activeFor canonical backend tables then none
  else some { tables with
    nextId := tables.nextId + 1,
    jobs := tables.jobs ++ [newJob canonical backend now tables] }

end

def pullingOf (backend : Backend) (job : Job) : Bool := (job.status = .pulling) && (job.backend = backend)

def Job.order (job : Job) : ℕ ×ₗ ℕ := toLex (job.queuePosition, job.id)

/-- What `claim_next` may start. -/
def runnable (limit : ℕ) (skipBackend : Option Backend) (now : ℕ) (tables : Tables) (job : Job) : Bool :=
  (job.status = .queued) && !job.paused && (match job.nextAttemptAt with
      | none => true
      | some next => next <= now) &&
    (tables.jobs.countP (pullingOf job.backend) < max 1 limit) && (skipBackend ≠ some job.backend)

def Job.claimedBy (token now : ℕ) (job : Job) : Job :=
  { job with
    status := .pulling, startedAt := some now, errorMessage := none, progressAt := some now, claimToken := some token }

def claimNext (limit : ℕ) (skipBackend : Option Backend) (token now : ℕ) (tables : Tables) : Tables :=
  match (tables.jobs.filter (runnable limit skipBackend now tables)).argmin Job.order with
  | none => tables
  | some job =>
    { tables with jobs := updateWhere (·.id = job.id) (Job.claimedBy token now) tables.jobs }

/-- The condition `_OWNED`: without an owner it holds. -/
def Job.owned (owner : Option ℕ) (job : Job) : Bool := owner.isNone || (job.claimToken = owner)

def setJob (jobId : ℕ) (allowed : Job -> Bool) (change : Job -> Job) (tables : Tables) : Tables :=
  { tables with jobs := updateWhere (fun job => (job.id = jobId) && allowed job) change tables.jobs }

def isPulling (owner : Option ℕ) (job : Job) : Bool := (job.status = .pulling) && job.owned owner

def isActive (owner : Option ℕ) (job : Job) : Bool := job.status.active && job.owned owner

def updateProgress (jobId : ℕ) (percent : ℤ) (detail : String) (completed total : Option ℕ) (owner : Option ℕ) (now : ℕ) :
  Tables -> Tables :=
  setJob jobId (isPulling owner) (fun job => { job with
    progressPct := (max 0 (min 100 percent)).toNat, progressDetail := clip detail,
    bytesCompleted := completed.or job.bytesCompleted, bytesTotal := total.or job.bytesTotal, progressAt := some now })

/-- `schedule_retry`; the claim's token stays. -/
def scheduleRetry (jobId attempts nextAttemptAt : ℕ) (error detail : String) (owner : Option ℕ) : Tables -> Tables :=
  setJob jobId (isPulling owner) (fun job => { job with
    status := .queued, attempts, nextAttemptAt := some nextAttemptAt, lastError := some (clip error),
    progressDetail := clip detail })

section

variable (jobId : ℕ)

def setRemoteId (remoteJobId : String) (owner : Option ℕ) : Tables -> Tables :=
  setJob jobId (isPulling owner) (fun job => { job with remoteJobId := some remoteJobId })

def finishedDetail (detail : String) (owner : Option ℕ) : Tables -> Tables :=
  setJob jobId (fun job => (job.status = .done) && job.owned owner) (fun job => { job with progressDetail := clip detail })

/-- `_discovery_outcome`: the record of a name is set, or added. -/
def discoveryOutcome (outcome : Status) (tables : Tables) : Tables :=
  match getJob jobId tables with
  | none => tables
  | some job =>
    if job.backend ≠ .ollama then tables
    else
      let name := canonicalOllamaName job.name
      let record := fun cancelled => { tables with
        discovery := if (tables.discovery.any (·.1 = name)) then
            updateWhere (·.1 = name) (fun entry => (entry.1, cancelled)) tables.discovery
          else tables.discovery ++ [(name, cancelled)] }
      match outcome with
      | .cancelled => record true
      | .done => record false
      | _ => tables

/-- `finish`; an unknown outcome raises. -/
def finish (outcome : Status) (error digest : Option String) (owner : Option ℕ) (now : ℕ) (tables : Tables) : Tables :=
  if outcome.active then tables
  else
    let selected := fun job : Job => (job.id = jobId) && isActive owner job
    let ended := setJob jobId (isActive owner) (fun job => { job with
      status := outcome, errorMessage := error.bind (fun text => if text = "" then none else some (clip text)),
      finishedAt := some now, nextAttemptAt := none, digest := digest.or job.digest,
      progressPct := if outcome = .done then 100 else job.progressPct }) tables
    if affected selected tables.jobs = 1 /\ (outcome = .done \/ outcome = .cancelled) then discoveryOutcome jobId outcome ended
    else ended

/-- `requeue`; the claim's token stays. -/
def requeue (note : String) (owner : Option ℕ) : Tables -> Tables :=
  setJob jobId (isPulling owner) (fun job => { job with status := .queued, progressDetail := clip note, finishedAt := none })

def cancel (error : Option String) (owner : Option ℕ) (now : ℕ) (tables : Tables) : Tables :=
  let selected := fun job : Job => (job.id = jobId) && isActive owner job
  let ended := setJob jobId (isActive owner) (fun job => { job with
    status := .cancelled, errorMessage := error, finishedAt := some now, nextAttemptAt := none }) tables
  if affected selected tables.jobs = 1 then discoveryOutcome jobId .cancelled ended else ended

end

def orphanSelected (row : Job) (job : Job) : Bool :=
  (job.id = row.id) && (job.status = .pulling) && (job.claimToken = row.claimToken)

/-- One row of `requeue_orphans`, if it still has the claim that was read. -/
def requeueOrphan (note : String) (tables : Tables) (row : Job) : Tables :=
  { tables with
    jobs := updateWhere (orphanSelected row)
      (fun job => { job with status := .queued, progressDetail := clip note, claimToken := none }) tables.jobs }

def requeueOrphans (before : ℕ) (running : List ℕ) (note : String) (tables : Tables) : Tables :=
  let stale := fun job : Job => (job.status = .pulling) &&
    ((job.progressAt.or job.startedAt).getD job.createdAt < before) && !(job.id ∈ running)
  (tables.jobs.filter stale).foldl (requeueOrphan note) tables

def restartNote : String := "Interrupted by a server restart; it will resume."

def resetStuck (tables : Tables) : Tables :=
  let stuck := fun job : Job => decide (job.status = .pulling)
  { tables with
    jobs := updateWhere stuck (fun job => { job with status := .queued, progressDetail := restartNote, claimToken := none })
      tables.jobs }

def setPaused (jobId : ℕ) (paused : Bool) : Tables -> Tables :=
  setJob jobId (·.status.active) (fun job => { job with paused })

def retryNow (jobId : ℕ) : Tables -> Tables :=
  setJob jobId (fun job => (job.status = .queued) && job.nextAttemptAt.isSome)
    (fun job => { job with nextAttemptAt := none, progressDetail := "Retrying now at an administrator's request." })

def noteWaiting (backend : Backend) (detail : String) (tables : Tables) : Tables :=
  let waiting := fun job : Job => (job.status = .queued) && (job.backend = backend) && !job.paused &&
    job.nextAttemptAt.isNone && (job.progressDetail ≠ clip detail)
  { tables with jobs := updateWhere waiting (fun job => { job with progressDetail := clip detail }) tables.jobs }

/-- The `cancel` of the service: for good, unless the job is over by then. -/
def cancelForGood (jobId : ℕ) (cleanup : Bool) (now : ℕ) (tables : Tables) : Tables :=
  match getJob jobId tables with
  | none => tables
  | some before =>
    if before.status.active then
      cancel jobId (some "Cancelled by an administrator.") none now
        (setJob jobId (fun _ => true) (fun job => { job with cleanupPartial := cleanup }) tables)
    else tables

inductive Write
  | progress (percent : ℤ) (detail : String) (completed total : Option ℕ)
  | retry (attempts nextAttemptAt : ℕ) (error detail : String)
  | remote (remoteJobId : String)
  | finishedDetail (detail : String)
  | finish (outcome : Status) (error digest : Option String)
  | requeue (note : String)
  | cancel (error : Option String)

def Write.perform (jobId : ℕ) (owner : Option ℕ) (now : ℕ) : Write -> Tables -> Tables
  | .progress percent detail completed total => updateProgress jobId percent detail completed total owner now
  | .retry attempts nextAttemptAt error detail => scheduleRetry jobId attempts nextAttemptAt error detail owner
  | .remote remoteJobId => setRemoteId jobId remoteJobId owner
  | .finishedDetail detail => Downloads.finishedDetail jobId detail owner
  | .finish outcome error digest => Downloads.finish jobId outcome error digest owner now
  | .requeue note => Downloads.requeue jobId note owner
  | .cancel error => Downloads.cancel jobId error owner now

inductive Reason
  | user
  | shutdown
  | pause
  | stall
  | gone

/-- `_check_claim`: why the run of a job must stop, by the row as it is now. -/
def checkClaim (job : Job) (tables : Tables) : Option Reason :=
  match getJob job.id tables with
  | none => some .gone
  | some row =>
    if job.claimToken.isSome /\ row.claimToken ≠ job.claimToken then some .gone
    else if row.status = .cancelled then some .user
    else if row.status ≠ .pulling then some .gone
    else if row.paused then some .pause
    else none

structure Retries where
  attempts : ℕ
  stallMinutes : ℕ
  serverDown : Bool

/-- `DownloadProblem`. -/
structure Problem where
  message : String
  transient : Bool

def retryBaseSeconds : ℕ := 30

def retryMaxSeconds : ℕ := 1800

def waitText (delay : ℕ) : String := if 60 <= delay then s!"{delay / 60} min" else s!"{delay} s"

def retryOrFail (retries : Retries) (now : ℕ) (job : Job) (problem : Problem) : Write :=
  if problem.transient /\ job.backend = .ollama /\ retries.serverDown then
    .retry job.attempts (now + retryBaseSeconds) problem.message
      ("Waiting for the model server to be reachable again: " ++ problem.message)
  else
    let attempts := job.attempts + 1
    if problem.transient /\ attempts <= retries.attempts then
      let delay := min retryMaxSeconds (retryBaseSeconds * 4 ^ (attempts - 1))
      .retry attempts (now + delay) problem.message
        (s!"Retrying in {waitText delay} (attempt {attempts + 1} of {retries.attempts + 1}): " ++ problem.message)
    else .finish .failed (some (if problem.transient /\ 1 < attempts then
      problem.message ++ s!" (gave up after {attempts} attempts)" else problem.message)) none

/-- `_interrupted`: what a run writes when it stops. -/
def interrupted (retries : Retries) (now : ℕ) (job : Job) : Reason -> Option Write
  | .user => some (.cancel (some "Cancelled by an administrator."))
  | .shutdown => some (.requeue restartNote)
  | .pause => some (.requeue "Paused; it resumes from where it stopped.")
  | .stall => some (retryOrFail retries now job
      { message := s!"No progress for {retries.stallMinutes} minute" ++ (if retries.stallMinutes = 1 then "." else "s."),
        transient := true })
  | .gone => none

inductive Action
  | enqueue (name : String) (backend : Backend) (now : ℕ)
  | claimNext (skipBackend : Option Backend) (token now : ℕ)
  | write (jobId : ℕ) (owner : Option ℕ) (write : Write) (now : ℕ)
  | retryOrFail (job : Job) (retries : Retries) (problem : Problem) (now : ℕ)
  | interrupted (job : Job) (retries : Retries) (reason : Reason) (now : ℕ)
  | requeueOrphans (before : ℕ) (running : List ℕ) (note : String)
  | resetStuck
  | setPaused (jobId : ℕ) (paused : Bool)
  | retryNow (jobId : ℕ)
  | noteWaiting (backend : Backend) (detail : String)
  | cancelForGood (jobId : ℕ) (cleanup : Bool) (now : ℕ)

def perform (limit : ℕ) (tables : Tables) : Action -> Tables
  | .enqueue name backend now => (enqueue name backend now tables).getD tables
  | .claimNext skipBackend token now => claimNext limit skipBackend token now tables
  | .write jobId owner write now => write.perform jobId owner now tables
  | .retryOrFail job retries problem now => (retryOrFail retries now job problem).perform job.id job.claimToken now tables
  | .interrupted job retries reason now =>
    match interrupted retries now job reason with
    | some write => write.perform job.id job.claimToken now tables
    | none => tables
  | .requeueOrphans before running note => requeueOrphans before running note tables
  | .resetStuck => resetStuck tables
  | .setPaused jobId paused => setPaused jobId paused tables
  | .retryNow jobId => retryNow jobId tables
  | .noteWaiting backend detail => noteWaiting backend detail tables
  | .cancelForGood jobId cleanup now => cancelForGood jobId cleanup now tables

end BananaChat.Downloads
