import BananaChat.Foundation.Machine
import BananaChat.Workers.Protocol

namespace BananaChat.Workers

open Foundation

/-!
# The relay of a job, and the pool as a machine

The request that inserted a job polls its chunks and sends them on.
-/

inductive RelayEnd
  | cancelled
  | closed
  | notStarted
  | failed
  | answered
deriving DecidableEq

/-- Where a relay stands: at the top of its loop; among the rows it read; after
them, with whether there were any; with the job it read; ended; and released. -/
inductive Phase
  | polling
  | relaying (hadRows : Bool) (rows : List ChunkRow)
  | looking (hadRows : Bool)
  | deciding (hadRows : Bool) (job : Option Job)
  | ended (how : RelayEnd)
  | released
deriving DecidableEq

/-- The local variables of `_relay`. -/
structure Relay where
  jobId : ℕ
  lastSeq : ℤ
  terminal : Bool
  produced : Bool
  missing : Bool
  phase : Phase
deriving DecidableEq

inductive Record
  | text (content thinking : String)
  | final (finishReason : String) (promptTokens completionTokens : Option ℕ)
deriving DecidableEq

def Relay.fresh (jobId : ℕ) : Relay where
  jobId := jobId
  lastSeq := -1
  terminal := false
  produced := false
  missing := false
  phase := .polling

structure Relayed where
  tables : Tables
  relay : Relay
  sent : List Record

def Relay.giveUp (relay : Relay) : Relay :=
  { relay with phase := .ended (if relay.produced then .failed else .notStarted) }

/-- The clock as a turn of the loop reads it, and as `_fail_relay` reads it again. -/
structure RelayClock where
  now : ℚ
  failing : ℚ

/-- Whom `_fail_relay` holds responsible. -/
inductive Blame
  | worker
  | stall

def failRelay (clock : RelayClock) (status : JobStatus) (message : String) (blamed : Option Blame) (relay : Relay)
  (tables : Tables) : Relayed :=
  let ended := finish JobStatus.live relay.jobId clock.failing (.failing status message) tables
  let held :=
    match blamed, (tables.getJob relay.jobId).filter (·.workerId.isSome) with
    | some blamed, some job =>
      if finishes JobStatus.live relay.jobId tables then
        match blamed with
        | .worker => misbehaved job.id job.workerId clock.failing ended
        | .stall => blame job clock.failing ended
      else ended
    | _, _ => ended
  ⟨held, relay.giveUp, []⟩

def cancelRelay (now : ℚ) (relay : Relay) (tables : Tables) : Relayed :=
  ⟨finish JobStatus.live relay.jobId now (.failing .failed "Generation stopped") tables,
    { relay with phase := .ended .cancelled }, []⟩

/-- No worker started answering in time; `held` says whether one had the whole
first-token time. -/
def poolTimeout (clock : RelayClock) (held : Bool) (relay : Relay) (tables : Tables) : Relayed :=
  failRelay clock .timeout "No worker started answering in time." (if held then some .stall else none) relay tables

def answerTimeout (now : ℚ) (relay : Relay) (tables : Tables) : Relayed :=
  ⟨finish JobStatus.live relay.jobId now (.failing .timeout "The answer took too long.") tables,
    { relay with phase := .ended .failed }, []⟩

def readChunks (relay : Relay) (tables : Tables) : Relayed :=
  let rows := chunksAfter relay.jobId relay.lastSeq tables
  ⟨tables, { relay with phase := .relaying (!rows.isEmpty) rows }, []⟩

def ChunkRow.record (row : ChunkRow) : List Record :=
  if row.content ≠ "" \/ row.thinking ≠ "" then [.text row.content row.thinking] else []

def relayChunk (clock : RelayClock) (hadRows : Bool) (row : ChunkRow) (rest : List ChunkRow) (relay : Relay)
  (tables : Tables) : Relayed :=
  if (row.seq : ℤ) ≠ relay.lastSeq + 1 \/ relay.terminal then
    failRelay clock .failed "The worker sent an incomplete answer." (some .worker) relay tables
  else
    ⟨tables, { relay with
        lastSeq := row.seq
        terminal := row.done
        produced := relay.produced || !row.record.isEmpty
        phase := .relaying hadRows rest },
      row.record⟩

section

variable (hadRows : Bool) (relay : Relay) (tables : Tables)

def forgetChunks : Relayed :=
  ⟨if hadRows /\ 0 < relay.lastSeq then deleteChunksBefore relay.jobId relay.lastSeq tables else tables,
    { relay with phase := .looking hadRows }, []⟩

def lookUp : Relayed := ⟨tables, { relay with phase := .deciding hadRows (tables.getJob relay.jobId) }, []⟩

end

def tokenCount (tokens : ℕ) : Option ℕ := if tokens = 0 then none else some tokens

def Job.final (job : Job) : Record :=
  .final (if job.finishReason = "" then "stop" else job.finishReason) (tokenCount job.tokensIn) (tokenCount job.tokensOut)

/-- What the relay does about the job it read; `windowOver` says whether a job
that waits has waited its claim time. -/
def decideJob (config : PoolConfig) (clock : RelayClock) (windowOver hadRows : Bool) (job : Job) (relay : Relay)
  (tables : Tables) : Relayed :=
  if job.status.terminal && (relay.lastSeq < (job.nextChunkSeq : ℤ) - 1) && (hadRows || !relay.missing) then
    ⟨tables, { relay with missing := !hadRows, phase := .polling }, []⟩
  else if job.status = .done then
    if relay.terminal = false \/ relay.lastSeq ≠ (job.nextChunkSeq : ℤ) - 1 then
      failRelay clock .failed "The worker ended without a completion marker." (some .worker) relay tables
    else ⟨tables, { relay with phase := .ended .answered }, [job.final]⟩
  else if relay.terminal && (job.status.terminal || (job.status.active && leaseExpired config clock.now job)) then
    ⟨finish JobStatus.active relay.jobId clock.now (.failing .timeout "The worker did not report its usage.") tables,
      { relay with phase := .ended .answered }, [.final "stop" none none]⟩
  else if job.status.terminal then ⟨tables, relay.giveUp, []⟩
  else if job.status = .pending then
    if windowOver && finishes JobStatus.waiting relay.jobId tables then
      ⟨finish JobStatus.waiting relay.jobId clock.now (.failing .failed "No worker took the job in time.") tables,
        { relay with phase := .ended .notStarted }, []⟩
    else ⟨tables, { relay with phase := .polling }, []⟩
  else if leaseExpired config clock.now job then
    failRelay clock .timeout "The worker stopped responding." (some .stall) relay tables
  else ⟨tables, { relay with phase := .polling }, []⟩

/-- `_release`. -/
def releaseRelay (now : ℚ) (relay : Relay) (tables : Tables) : Relayed :=
  ⟨deleteChunks relay.jobId (finish JobStatus.live relay.jobId now (.failing .failed "Generation stopped") tables),
    { relay with phase := .released }, []⟩

inductive RelayMove
  | cancel
  | poolTimeout (held : Bool)
  | answerTimeout
  | advance (windowOver : Bool)
  | close
  | release
deriving DecidableEq

/-- A step of a relay.  Cancellation and time-outs are seen at the top of the
loop, and an error or a requester that leaves ends it anywhere; a move out of its
phase does nothing. -/
def relayStep (config : PoolConfig) (clock : RelayClock) (move : RelayMove) (relay : Relay) (tables : Tables) : Relayed :=
  match move, relay.phase with
  | .cancel, .polling => cancelRelay clock.now relay tables
  | .poolTimeout held, .polling => if relay.produced then ⟨tables, relay, []⟩ else poolTimeout clock held relay tables
  | .answerTimeout, .polling => answerTimeout clock.now relay tables
  | .advance _, .polling => readChunks relay tables
  | .advance _, .relaying hadRows (row :: rest) => relayChunk clock hadRows row rest relay tables
  | .advance _, .relaying hadRows [] => forgetChunks hadRows relay tables
  | .advance _, .looking hadRows => lookUp hadRows relay tables
  | .advance _, .deciding _ none => ⟨tables, relay.giveUp, []⟩
  | .advance windowOver, .deciding hadRows (some job) => decideJob config clock windowOver hadRows job relay tables
  | .release, .ended _ => releaseRelay clock.now relay tables
  | .close, .ended _ => ⟨tables, relay, []⟩
  | .close, .released => ⟨tables, relay, []⟩
  | .close, _ => ⟨tables, { relay with phase := .ended .closed }, []⟩
  | _, _ => ⟨tables, relay, []⟩

structure Pool where
  tables : Tables
  relays : List Relay
  issued : List ℕ
deriving DecidableEq

namespace Pool

def relayOf (pool : Pool) (jobId : ℕ) : Option Relay := pool.relays.find? (·.jobId = jobId)

def putRelay (pool : Pool) (relay : Relay) : Pool :=
  { pool with relays := Rows.updateWhere (·.jobId = relay.jobId) (fun _ => relay) pool.relays }

def write (pool : Pool) (change : Tables -> Tables) : Pool := { pool with tables := change pool.tables }

end Pool

/-- The steps of any number of requests, workers, administrators and server
processes.  The checks that `claim` makes before its transaction only end it
early, so a run in which they do is one in which that claim does not come. -/
inductive PoolAction
  | insertJob (jobId : ℕ) (now : ℚ) (new : NewJob)
  | relay (jobId : ℕ) (clock : RelayClock) (move : RelayMove)
  | touch (workerId : ℕ) (now : ℚ)
  | heartbeat (workerId : ℕ) (now : ℚ) (report : Report) (jobId : Option ℕ)
  | claim (asking : Asking) (now : ℚ) (place : Bool)
  | submitChunk (now : ℚ) (moment : Moment) (workerId jobId : ℕ) (body : ChunkBody)
  | complete (now : ℚ) (moment : Moment) (workerId jobId : ℕ) (body : CompleteBody)
  | fail (now : ℚ) (workerId jobId : ℕ) (body : FailBody)
  | registerWorker (workerId : ℕ)
  | setEnabled (workerId : ℕ) (now : ℚ) (enabled : Bool)
  | deleteWorker (workerId : ℕ) (now : ℚ)
  | expireJobs (moment : Moment)
  | forgetJobs (now : ℚ)

def relayOutcome (config : PoolConfig) (pool : Pool) (jobId : ℕ) (clock : RelayClock) (move : RelayMove) : Option Relayed :=
  (pool.relayOf jobId).map (relayStep config clock move · pool.tables)

def poolNext (config : PoolConfig) (pool : Pool) : PoolAction -> Pool
  | .insertJob jobId now new =>
    { tables := insertJob new jobId now pool.tables
      relays := pool.relays ++ [Relay.fresh jobId]
      issued := jobId :: pool.issued }
  | .relay jobId clock move =>
    match relayOutcome config pool jobId clock move with
    | none => pool
    | some outcome => { pool.putRelay outcome.relay with tables := outcome.tables }
  | .touch workerId now => pool.write (touch workerId now)
  | .heartbeat workerId now report jobId => pool.write (fun tables => (heartbeat workerId now report jobId tables).1)
  | .claim asking now place => pool.write (fun tables => ((claim asking now place tables).map Prod.fst).getD tables)
  | .submitChunk now moment workerId jobId body =>
    pool.write (fun tables => (submitChunk config now moment workerId jobId body tables).1)
  | .complete now moment workerId jobId body =>
    pool.write (fun tables => (complete config now moment workerId jobId body tables).1)
  | .fail now workerId jobId body => pool.write (fun tables => (fail config now workerId jobId body tables).1)
  | .registerWorker workerId => pool.write (registerWorker workerId)
  | .setEnabled workerId now enabled => pool.write (setEnabled workerId now enabled)
  | .deleteWorker workerId now => pool.write (deleteWorker workerId now)
  | .expireJobs moment => pool.write (expireJobs config moment)
  | .forgetJobs now => pool.write (forgetJobs now)

/-- A new job has a new id, and a worker reports a status of `WORKER_STATUSES`. -/
def poolEnabled (pool : Pool) : PoolAction -> Prop
  | .insertJob jobId _ _ => jobId ∉ pool.issued
  | .heartbeat _ _ report _ => report.status ≠ .disabled
  | _ => True

def poolMachine (config : PoolConfig) : Machine Pool PoolAction where
  initial := fun pool => pool.tables.jobs = [] /\ pool.tables.chunks = [] /\ pool.relays = []
  enabled := poolEnabled
  next := poolNext config

instance (config : PoolConfig) (pool : Pool) (action : PoolAction) : Decidable ((poolMachine config).enabled pool action) := by
  change Decidable (poolEnabled pool action)
  cases action <;> unfold poolEnabled <;> infer_instance

end BananaChat.Workers
