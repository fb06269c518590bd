import BananaChat.Foundation.Machine
import BananaChat.Checkpoints.Records

namespace BananaChat.Checkpoints

open Foundation

/-!
# The checkpoint agent

Requests come on any thread and one worker downloads.
-/

structure Config where
  queueSize : ℕ
  fingerprint : Request -> String

/-- What must be recorded of a download that did not install its file. -/
inductive Ending
  | requeue
  | canceled
  | failed (code message : String)
deriving DecidableEq

inductive Worker
  | idle
  | chosen (jobId : ℕ)
  | downloading (snapshot : Job)
  | installed (jobId : ℕ) (digest : String) (size : ℕ)
  | ended (jobId : ℕ) (ending : Ending)
  | recovering (jobId : ℕ)
  | gone
deriving DecidableEq

/-- What happened, for the statements only: the ids that were given to jobs, the jobs that
installed their file, and the completed jobs whose target was deleted since. -/
structure History where
  issued : List ℕ
  installed : List ℕ
  removed : List ℕ

structure Agent where
  records : Records
  order : List ℕ
  deleting : List (String × Managed)
  worker : Worker
  stopping : Bool
  history : History

inductive Reply
  | job (job : Job) (created : Bool)
  | accepted
  | deleted (name digest : String)
  | refused (status : ℕ) (code message : String)
  | saveFailed (error : SaveError)
deriving DecidableEq

namespace Records

def getJob (jobId : ℕ) (records : Records) : Option Job := records.jobs.find? (·.id = jobId)

def getManaged (name : String) (records : Records) : Option Managed := records.managed.find? (·.name = name)

def setJob (jobId : ℕ) (change : Job -> Job) (records : Records) : Records :=
  { records with jobs := Rows.updateWhere (·.id = jobId) change records.jobs }

def add (job : Job) (records : Records) : Records := { records with jobs := records.jobs ++ [job] }

def drop (jobId : ℕ) (records : Records) : Records :=
  { records with
    jobs := Rows.deleteWhere (·.id = jobId) records.jobs,
    cancel := records.cancel.filter (· ≠ jobId) }

def mark (jobId : ℕ) (records : Records) : Records := { records with cancel := jobId :: records.cancel }

def putManaged (item : Managed) (records : Records) : Records :=
  { records with managed := records.managed.filter (·.name ≠ item.name) ++ [item] }

def dropManaged (name : String) (records : Records) : Records :=
  { records with managed := records.managed.filter (·.name ≠ name) }

def queued (records : Records) : ℕ := records.jobs.countP (·.status = .queued)

end Records

section

variable (config : Config)

def newJob (request : Request) (jobId clock : ℕ) : Job :=
  { id := jobId, request, requestFingerprint := config.fingerprint request, status := .queued, bytesReceived := 0, digest := none,
    size := none, createdAt := stamp clock, updatedAt := stamp clock, error := none }

def submitted (request : Request) (records : Records) : Option Job :=
  records.jobs.find? (·.request.idempotencyKey = request.idempotencyKey)

/-- `submit`; the job is dropped again when the save fails. -/
def submit (request : Request) (jobId clock : ℕ) (works : Bool) (agent : Agent) : Agent × Reply :=
  match submitted request agent.records with
  | some existing =>
    if existing.requestFingerprint ≠ config.fingerprint request then
      (agent, .refused 409 "idempotency_conflict" "idempotency key was already used")
    else (agent, .job existing false)
  | none =>
    if config.queueSize <= agent.records.queued then (agent, .refused 429 "queue_full" "download queue is full")
    else
      let job := newJob config request jobId clock
      let saved := persist clock works (agent.records.add job)
      let history := { agent.history with issued := jobId :: agent.history.issued }
      match saved.2 with
      | some error => ({ agent with records := saved.1.drop jobId, history }, .saveFailed error)
      | none => ({ agent with records := saved.1, order := agent.order ++ [jobId], history }, .job job true)

def Job.ended (status : Status) (code message : String) (clock : ℕ) (job : Job) : Job :=
  { job with status, updatedAt := stamp clock, error := some { code, message } }

def canceledMessage : String := "download was canceled"

def withdraw (jobId clock : ℕ) (records : Records) : Records :=
  (records.mark jobId).setJob jobId (Job.ended .canceled "canceled" canceledMessage clock)

/-- `cancel`; what it changed stays when the save fails. -/
def cancel (jobId clock : ℕ) (works : Bool) (agent : Agent) : Agent × Reply :=
  match agent.records.getJob jobId with
  | none => (agent, .refused 404 "not_found" "download job was not found")
  | some job =>
    if job.status.finished then (agent, .refused 409 "job_terminal" "download job is already finished")
    else if job.status = .queued then
      let saved := persist clock works (withdraw jobId clock agent.records)
      let after := { agent with records := saved.1, order := agent.order.filter (· ≠ jobId) }
      match saved.2 with
      | some error => (after, .saveFailed error)
      | none => (after, .job (job.ended .canceled "canceled" canceledMessage clock) false)
    else ({ agent with records := agent.records.mark jobId }, .job job false)

/-- The first part of `delete_checkpoint`, before the file is hashed. -/
def deleteStart (name supplied : String) (agent : Agent) : Agent × Reply :=
  match agent.records.getManaged name with
  | none => (agent, .refused 404 "not_found" "managed checkpoint was not found")
  | some item =>
    if supplied ≠ item.digest then (agent, .refused 412 "precondition_failed" "If-Match does not match")
    else if name ∈ agent.deleting.map Prod.fst then
      (agent, .refused 409 "checkpoint_busy" "the checkpoint is already being deleted")
    else ({ agent with deleting := (name, item) :: agent.deleting }, .accepted)

def completedFor (name : String) (records : Records) : List ℕ :=
  (records.jobs.filter fun job => (job.status = .completed) && (job.request.targetName = name)).map Job.id

/-- What is wrong with a file that is to be deleted. -/
structure Problem where
  status : ℕ
  failure : Failure

/-- The second part of `delete_checkpoint`, after the file was hashed. -/
def deleteFinish (name : String) (item : Managed) (problem : Option Problem) (clock : ℕ) (works : Bool) (agent : Agent) :
  Agent × Reply :=
  let released := { agent with deleting := agent.deleting.filter (·.1 ≠ name) }
  match problem with
  | some problem => (released, .refused problem.status problem.failure.code problem.failure.message)
  | none =>
    if agent.records.getManaged name ≠ some item then
      (released, .refused 409 "checkpoint_changed" "checkpoint changed during verification")
    else
      let saved := persist clock works (agent.records.dropManaged name)
      let history := { agent.history with removed := completedFor name agent.records ++ agent.history.removed }
      match saved.2 with
      | some error => ({ released with records := saved.1, history }, .saveFailed error)
      | none => ({ released with records := saved.1, history }, .deleted name item.digest)

/-- `close`: the events of all jobs are set. -/
def stop (agent : Agent) : Agent :=
  { agent with
    stopping := true,
    records := { agent.records with cancel := agent.records.jobs.map Job.id ++ agent.records.cancel } }

def waits (records : Records) (jobId : ℕ) : Bool := records.jobs.any (fun job => (job.id = jobId) && (job.status = .queued))

/-- `_next_job_locked`: the first waiting job, and the entries that are left. -/
def nextJob (records : Records) : List ℕ -> Option ℕ × List ℕ
  | [] => (none, [])
  | jobId :: rest => if waits records jobId = true then (some jobId, rest) else nextJob records rest

/-- The choice of `_worker_loop`. -/
def pick (agent : Agent) : Agent :=
  if agent.stopping then { agent with worker := .gone }
  else
    match (nextJob agent.records agent.order).1 with
    | some jobId => { agent with order := (nextJob agent.records agent.order).2, worker := .chosen jobId }
    | none => { agent with order := (nextJob agent.records agent.order).2 }

def Job.begun (clock : ℕ) (job : Job) : Job := { job with status := .downloading, updatedAt := stamp clock }

/-- The start of `_run_job`. -/
def beginJob (jobId clock : ℕ) (works : Bool) (agent : Agent) : Agent :=
  match agent.records.getJob jobId with
  | none => { agent with worker := .idle }
  | some job =>
    if job.status ≠ .queued \/ jobId ∈ agent.records.cancel then { agent with worker := .idle }
    else
      let saved := persist clock works (agent.records.setJob jobId (Job.begun clock))
      { agent with
        records := saved.1,
        worker := if saved.2 = none then .downloading (job.begun clock) else .recovering jobId }

/-- Bytes that `_download` received. -/
def progress (jobId total clock : ℕ) (agent : Agent) : Agent :=
  { agent with
    records := agent.records.setJob jobId (fun job => { job with bytesReceived := total, updatedAt := stamp clock }) }

/-- How `_download` returns: with the digest and the size of the file, or by an exception. -/
inductive Outcome
  | installed (digest : String) (size : ℕ)
  | canceled
  | failed (code message : String)

/-- A file is installed when it is the expected one; `DownloadCanceled` is raised when the
event of the job is set, or when the agent stops. -/
def Outcome.Possible (snapshot : Job) (agent : Agent) : Outcome -> Prop
  | .installed digest size => digest = snapshot.request.expectedSha256 /\
      ∀ expected, snapshot.request.expectedSize = some expected -> size = expected
  | .canceled => snapshot.id ∈ agent.records.cancel \/ agent.stopping
  | .failed _ _ => True

/-- The end of `_download`, and the handler that `_run_job` chooses. -/
def finishDownload (jobId : ℕ) (outcome : Outcome) (agent : Agent) : Agent :=
  match outcome with
  | .installed digest size => { agent with
      worker := .installed jobId digest size,
      history := { agent.history with installed := jobId :: agent.history.installed } }
  | .canceled => { agent with worker := .ended jobId (if agent.stopping then .requeue else .canceled) }
  | .failed code message => { agent with worker := .ended jobId (if agent.stopping then .requeue else .failed code message) }

def Job.done (digest : String) (size clock : ℕ) (job : Job) : Job :=
  { job with
    status := .completed, bytesReceived := size, digest := some digest, size := some size, updatedAt := stamp clock, error := none }

def install (job : Job) (digest : String) (size clock : ℕ) (records : Records) : Records :=
  (records.setJob job.id (Job.done digest size clock)).putManaged
    { name := job.request.targetName, digest, size, installedAt := stamp clock, jobId := job.id }

/-- The worker after a save of `_run_job`, which raises its error. -/
def Worker.after (jobId : ℕ) : Option SaveError -> Worker
  | none => .idle
  | some _ => .recovering jobId

/-- The record of `_run_job` that a file is installed. -/
def complete (jobId : ℕ) (digest : String) (size clock : ℕ) (works : Bool) (agent : Agent) : Agent :=
  match agent.records.getJob jobId with
  | none => { agent with worker := .recovering jobId }
  | some job =>
    let saved := persist clock works (install job digest size clock agent.records)
    { agent with records := saved.1, worker := .after jobId saved.2 }

def Job.requeued (clock : ℕ) (job : Job) : Job :=
  { job with status := .queued, bytesReceived := 0, updatedAt := stamp clock, error := none }

def saveJob (jobId : ℕ) (change : Job -> Job) (clock : ℕ) (works : Bool) (records : Records) : Records × Option SaveError :=
  match records.getJob jobId with
  | none => (records, none)
  | some _ => persist clock works (records.setJob jobId change)

def requeueForRestart (jobId clock : ℕ) (works : Bool) : Records -> Records × Option SaveError :=
  saveJob jobId (Job.requeued clock) clock works

def finishError (jobId : ℕ) (status : Status) (code message : String) (clock : ℕ) (works : Bool) : Records -> Records × Option SaveError :=
  saveJob jobId (Job.ended status code message clock) clock works

/-- What a handler of `_run_job` writes. -/
def Ending.save (jobId clock : ℕ) (works : Bool) : Ending -> Records -> Records × Option SaveError
  | .requeue => requeueForRestart jobId clock works
  | .canceled => finishError jobId .canceled "canceled" canceledMessage clock works
  | .failed code message => finishError jobId .failed code message clock works

/-- The record of `_run_job` that no file is installed. -/
def recordEnding (jobId : ℕ) (ending : Ending) (clock : ℕ) (works : Bool) (agent : Agent) : Agent :=
  { agent with
    records := (ending.save jobId clock works agent.records).1,
    worker := .after jobId (ending.save jobId clock works agent.records).2 }

def markFailed (jobId clock : ℕ) : Records -> Records :=
  Records.setJob jobId (Job.ended .failed "internal_error" "the agent could not record the download" clock)

/-- The handler of `_worker_loop`: it catches an `OSError` of its own save, and the thread
ends with any other error. -/
def recover (jobId clock : ℕ) (works : Bool) (agent : Agent) : Agent :=
  let saved := finishError jobId .failed "internal_error" "the agent could not record the download" clock works agent.records
  { agent with records := saved.1, worker := if saved.2 = some .tooLarge then .gone else .idle }

inductive Action
  | submit (request : Request) (jobId clock : ℕ) (works : Bool)
  | cancel (jobId clock : ℕ) (works : Bool)
  | deleteStart (name supplied : String)
  | deleteFinish (name : String) (item : Managed) (problem : Option Problem) (clock : ℕ) (works : Bool)
  | stop
  | pick
  | beginJob (jobId clock : ℕ) (works : Bool)
  | progress (snapshot : Job) (total clock : ℕ)
  | finishDownload (snapshot : Job) (outcome : Outcome)
  | complete (jobId : ℕ) (digest : String) (size clock : ℕ) (works : Bool)
  | recordEnding (jobId : ℕ) (ending : Ending) (clock : ℕ) (works : Bool)
  | recover (jobId clock : ℕ) (works : Bool)

def perform (agent : Agent) : Action -> Agent
  | .submit request jobId clock works => (submit config request jobId clock works agent).1
  | .cancel jobId clock works => (cancel jobId clock works agent).1
  | .deleteStart name supplied => (deleteStart name supplied agent).1
  | .deleteFinish name item problem clock works => (deleteFinish name item problem clock works agent).1
  | .stop => stop agent
  | .pick => pick agent
  | .beginJob jobId clock works => beginJob jobId clock works agent
  | .progress snapshot total clock => progress snapshot.id total clock agent
  | .finishDownload snapshot outcome => finishDownload snapshot.id outcome agent
  | .complete jobId digest size clock works => complete jobId digest size clock works agent
  | .recordEnding jobId ending clock works => recordEnding jobId ending clock works agent
  | .recover jobId clock works => recover jobId clock works agent

def reply (agent : Agent) : Action -> Option Reply
  | .submit request jobId clock works => some (submit config request jobId clock works agent).2
  | .cancel jobId clock works => some (cancel jobId clock works agent).2
  | .deleteStart name supplied => some (deleteStart name supplied agent).2
  | .deleteFinish name item problem clock works => some (deleteFinish name item problem clock works agent).2
  | _ => none

/-- New ids are fresh, a deletion goes on with the item it found, and the worker does what
is next. -/
def Possible (agent : Agent) : Action -> Prop
  | .submit _ jobId _ _ => jobId ∉ agent.history.issued
  | .deleteFinish name item _ _ _ => (name, item) ∈ agent.deleting
  | .pick => agent.worker = .idle
  | .beginJob jobId _ _ => agent.worker = .chosen jobId
  | .progress snapshot _ _ => agent.worker = .downloading snapshot
  | .finishDownload snapshot outcome => agent.worker = .downloading snapshot /\ outcome.Possible snapshot agent
  | .complete jobId digest size _ _ => agent.worker = .installed jobId digest size
  | .recordEnding jobId ending _ _ => agent.worker = .ended jobId ending
  | .recover jobId _ _ => agent.worker = .recovering jobId
  | _ => True

instance (snapshot : Job) (agent : Agent) : ∀ outcome : Outcome, Decidable (outcome.Possible snapshot agent)
  | .installed digest size => inferInstanceAs (Decidable (digest = snapshot.request.expectedSha256 /\
      ∀ expected ∈ snapshot.request.expectedSize, size = expected))
  | .canceled => inferInstanceAs (Decidable (_ \/ _))
  | .failed _ _ => inferInstanceAs (Decidable True)

instance (agent : Agent) : ∀ action, Decidable (Possible agent action)
  | .submit _ jobId _ _ => inferInstanceAs (Decidable (jobId ∉ agent.history.issued))
  | .deleteFinish name item _ _ _ => inferInstanceAs (Decidable ((name, item) ∈ agent.deleting))
  | .pick => inferInstanceAs (Decidable (agent.worker = .idle))
  | .beginJob jobId _ _ => inferInstanceAs (Decidable (agent.worker = .chosen jobId))
  | .progress snapshot _ _ => inferInstanceAs (Decidable (agent.worker = .downloading snapshot))
  | .finishDownload snapshot outcome =>
    inferInstanceAs (Decidable (agent.worker = .downloading snapshot /\ outcome.Possible snapshot agent))
  | .complete jobId digest size _ _ => inferInstanceAs (Decidable (agent.worker = .installed jobId digest size))
  | .recordEnding jobId ending _ _ => inferInstanceAs (Decidable (agent.worker = .ended jobId ending))
  | .recover jobId _ _ => inferInstanceAs (Decidable (agent.worker = .recovering jobId))
  | .cancel _ _ _ => inferInstanceAs (Decidable True)
  | .deleteStart _ _ => inferInstanceAs (Decidable True)
  | .stop => inferInstanceAs (Decidable True)

/-- Jobs as a start loads them: none runs, and those that wait are in the queue.  A job that
an earlier process completed installed its file. -/
structure Loaded (agent : Agent) : Prop where
  idle : agent.worker = .idle
  runs : agent.stopping = false
  unmarked : agent.records.cancel = []
  ids : (agent.records.jobs.map Job.id).Nodup
  stopped : ∀ job ∈ agent.records.jobs, job.status ≠ .downloading
  waiting : ∀ job ∈ agent.records.jobs, job.status = .queued -> job.id ∈ agent.order
  verified : ∀ job ∈ agent.records.jobs, job.status = .completed -> job.digest = some job.request.expectedSha256
  issued : agent.history.issued = agent.records.jobs.map Job.id
  installed : ∀ jobId, jobId ∈ agent.history.installed ↔
    ∃ job ∈ agent.records.jobs, job.id = jobId /\ job.status = .completed
  removed : ∀ job ∈ agent.records.jobs, job.status = .completed ->
    job.request.targetName ∉ agent.records.managed.map Managed.name -> job.id ∈ agent.history.removed

def agents (permits : Agent -> Action -> Prop) : Machine Agent Action where
  initial := Loaded
  enabled := fun agent action => Possible agent action /\ permits agent action
  next := perform config

end

instance (config : Config) (permits : Agent -> Action -> Prop) [∀ agent action, Decidable (permits agent action)] (agent : Agent)
  (action : Action) : Decidable ((agents config permits).enabled agent action) :=
  inferInstanceAs (Decidable (Possible agent action /\ permits agent action))

end BananaChat.Checkpoints
