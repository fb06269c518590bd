import Mathlib.Data.List.MinMax
import Mathlib.Algebra.Order.Ring.Rat
import BananaChat.Foundation.Machine
import BananaChat.Foundation.Rows

namespace BananaChat.Queue

open Foundation List Rows

/-!
# The inference queue

`inference_queue` holds a row for every waiting or running request, in two lanes.
-/

def leaseSeconds : ℚ := 90

def maxPerOwner : ℕ := 3

def orphanGraceSeconds : ℚ := 15

/-- `LANES`. -/
inductive Lane
  | localLane
  | hostedLane
deriving DecidableEq

inductive Status
  | waiting
  | running
deriving DecidableEq

/-- A row of `inference_queue`. -/
structure QueueRow where
  seq : ℕ
  requestId : ℕ
  priority : ℤ
  status : Status
  ownerPid : ℕ
  enqueuedAt : ℚ
  startedAt : Option ℚ
  heartbeatAt : ℚ
  ownerKey : Option String
  modelName : Option String
  lane : Lane
deriving DecidableEq

structure Config where
  maxConcurrent : ℕ
  maxConcurrentHosted : ℕ
  maxQueueDepth : ℕ

/-- `_limits`: the places and the depth of a lane. -/
def limits (config : Config) : Lane -> ℕ × ℕ
  | .localLane => (config.maxConcurrent, config.maxQueueDepth)
  | .hostedLane => (config.maxConcurrentHosted, config.maxQueueDepth)

inductive Backend
  | ollama
  | comfyui
  | external
  | claude
  | codex
deriving DecidableEq

/-- `HOSTED_BACKENDS`. -/
def Backend.hosted : Backend -> Bool
  | .external => true
  | .claude => true
  | .codex => true
  | _ => false

def Backend.pooled : Backend -> Bool
  | .claude => true
  | .codex => true
  | _ => false

/-- The columns of `ai_models` that the queue reads. -/
structure AiModel where
  backend : Backend
  ollamaName : String
  backendModelName : Option String

def AiModel.hostedAs (name : String) (model : AiModel) : Bool :=
  model.backend.hosted &&
    ((model.ollamaName = name) || (model.backend.pooled && (model.backendModelName = some name)))

def hostedName (models : List AiModel) : Option String -> Bool
  | none => false
  | some name => models.any (AiModel.hostedAs name)

def modelMemoryOk (models : List AiModel) (memoryOk : Bool) : Option String -> Bool
  | none => memoryOk
  | some name => if name = "" then memoryOk else models.any (AiModel.hostedAs name) || memoryOk

namespace QueueRow

/-- `heartbeat_at>=cutoff`. -/
def live (cutoff : ℚ) (row : QueueRow) : Bool := cutoff <= row.heartbeatAt

def inLane (lane : Lane) (row : QueueRow) : Bool := row.lane = lane

def ownedBy (key : String) (row : QueueRow) : Bool := row.ownerKey = some key

def runs (row : QueueRow) : Bool := row.status = .running

def named (requestId : ℕ) (row : QueueRow) : Bool := row.requestId = requestId

/-- `ORDER BY priority, seq`. -/
def order (row : QueueRow) : ℤ ×ₗ ℕ := toLex (row.priority, row.seq)

end QueueRow

/-- What one query reads besides the table: the cutoff of live rows, its lane,
whether there is memory for a local model, and the models. -/
structure Glance where
  cutoff : ℚ
  lane : Lane
  memoryOk : Bool
  models : List AiModel

/-- `_running`. -/
def runningIn (cutoff : ℚ) (lane : Lane) (rows : List QueueRow) : ℕ :=
  rows.countP (fun row => row.runs && row.live cutoff && row.inLane lane)

def ownerRuns (cutoff : ℚ) (rows : List QueueRow) (row : QueueRow) : Bool :=
  rows.any fun other =>
    other.runs && row.ownerKey.isSome && (other.ownerKey = row.ownerKey) && other.live cutoff && other.inLane row.lane

section

variable (glance : Glance) (rows : List QueueRow)

/-- The condition of the query of `_is_next`. -/
def eligible (row : QueueRow) : Bool :=
  !row.runs && row.live glance.cutoff && row.inLane glance.lane && !ownerRuns glance.cutoff rows row &&
    ((glance.lane = .hostedLane) || glance.memoryOk || hostedName glance.models row.modelName)

def firstEligible : Option QueueRow := (rows.filter (eligible glance rows)).argmin QueueRow.order

def isNext (requestId : ℕ) : Bool := (firstEligible glance rows).map QueueRow.requestId = some requestId

end

/-- `_is_next` finds a row that waits, is eligible, and that no eligible row
comes before. -/
theorem exists_of_isNext {glance : Glance} {rows : List QueueRow} {requestId : ℕ}
  (next : isNext glance rows requestId) : ∃ row ∈ rows, row.requestId = requestId /\ eligible glance rows row /\
    ∀ other ∈ rows, eligible glance rows other -> row.order <= other.order := by
  unfold isNext at next
  rw [decide_eq_true_eq, Option.map_eq_some_iff] at next
  rcases next with ⟨row, found, same⟩
  have mem := mem_filter.mp (argmin_mem found)
  refine ⟨row, mem.1, same, mem.2, ?_⟩
  intro _ otherIn otherEligible
  exact le_of_mem_argmin (mem_filter.mpr ⟨otherIn, otherEligible⟩) found

structure Entry where
  priority : ℤ
  owner : Option String
  modelName : Option String
  lane : Lane

/-- `owner_key` of a slot: the hosted lane has keys of its own. -/
def ownerKeyIn (lane : Lane) : Option String -> Option String
  | none => none
  | some owner => if owner ≠ "" /\ lane = .hostedLane then some (owner ++ ":hosted") else some owner

def ownerFull (key : Option String) (rows : List QueueRow) : Bool :=
  match key with
  | none => false
  | some owner => (owner ≠ "") && (maxPerOwner <= rows.countP (QueueRow.ownedBy owner))

/-- The new row of `__enter__`. -/
def Entry.row (entry : Entry) (now : ℚ) (pid requestId seq : ℕ) : QueueRow :=
  { seq := seq
    requestId := requestId
    priority := entry.priority
    status := .waiting
    ownerPid := pid
    enqueuedAt := now
    startedAt := none
    heartbeatAt := now
    ownerKey := ownerKeyIn entry.lane entry.owner
    modelName := entry.modelName
    lane := entry.lane }

/-- The removal of expired rows in `__enter__`. -/
def removeExpired (now : ℚ) (rows : List QueueRow) : List QueueRow :=
  deleteWhere (·.heartbeatAt < now - leaseSeconds) rows

/-- `__enter__`; none is `QueueFull`, which undoes the transaction. -/
def enter (config : Config) (now : ℚ) (pid requestId seq : ℕ) (entry : Entry) (rows : List QueueRow) :
  Option (List QueueRow) :=
  let kept := removeExpired now rows
  if (limits config entry.lane).2 <= kept.countP (QueueRow.inLane entry.lane) then none
  else if ownerFull (ownerKeyIn entry.lane entry.owner) kept then none
  else some (kept ++ [entry.row now pid requestId seq])

/-- `release` and the deletion of `release_process`. -/
def release (requestId : ℕ) (rows : List QueueRow) : List QueueRow := deleteWhere (QueueRow.named requestId) rows

def setModel (requestId : ℕ) (modelName : Option String) (rows : List QueueRow) : List QueueRow :=
  updateWhere (QueueRow.named requestId) (fun row => { row with modelName := modelName }) rows

def QueueRow.renewed (now : ℚ) (row : QueueRow) : QueueRow := { row with heartbeatAt := now }

@[simp] theorem QueueRow.renewed_requestId (now : ℚ) (row : QueueRow) : (row.renewed now).requestId = row.requestId := rfl

@[simp] theorem QueueRow.renewed_status (now : ℚ) (row : QueueRow) : (row.renewed now).status = row.status := rfl

def renew (now : ℚ) (requestId : ℕ) (rows : List QueueRow) : List QueueRow :=
  updateWhere (QueueRow.named requestId) (QueueRow.renewed now) rows

def expireProcess (now : ℚ) (pid : ℕ) (rows : List QueueRow) : List QueueRow :=
  let stamp := now - leaseSeconds + orphanGraceSeconds
  updateWhere (fun row => row.ownerPid = pid /\ stamp < row.heartbeatAt)
    (QueueRow.renewed stamp) rows

/-- What the unique index `idx_inference_owner_running` holds. -/
def ownerRunningIndex (rows : List QueueRow) : List String :=
  rows.filterMap (fun row => if row.runs then row.ownerKey else none)

inductive ConstraintError
  | ownerRunning
deriving DecidableEq

/-- `req_id=? AND status='waiting'`. -/
def QueueRow.waitsAs (requestId : ℕ) (row : QueueRow) : Bool := row.named requestId && !row.runs

def QueueRow.started (now : ℚ) (row : QueueRow) : QueueRow :=
  { row with
    status := .running
    startedAt := some now
    heartbeatAt := now }

section

variable (now : ℚ) (requestId : ℕ) (rows : List QueueRow)

/-- The table after `UPDATE inference_queue SET status='running' ...`. -/
def startedRows : List QueueRow := updateWhere (QueueRow.waitsAs requestId) (QueueRow.started now) rows

def setRunning : Except ConstraintError (List QueueRow × ℕ) :=
  if (ownerRunningIndex (startedRows now requestId rows)).Nodup then
    .ok (startedRows now requestId rows, affected (QueueRow.waitsAs requestId) rows)
  else .error .ownerRunning

end

section

variable (config : Config) (glance : Glance)

/-- The transaction of `_try_start`: the table, and whether the request runs. -/
def startTransaction (now : ℚ) (requestId : ℕ) (rows : List QueueRow) :
  Except ConstraintError (List QueueRow × Bool) :=
  if (limits config glance.lane).1 <= runningIn glance.cutoff glance.lane rows \/ isNext glance rows requestId = false then
    .ok (rows, false)
  else
    match setRunning now requestId rows with
    | .error error => .error error
    | .ok (updated, count) => .ok (updated, (count = 1))

/-- The checks of `_try_start` before its transaction. -/
def mayStart (requestId : ℕ) (modelName : Option String) (rows : List QueueRow) : Bool :=
  (runningIn glance.cutoff glance.lane rows < (limits config glance.lane).1) && isNext glance rows requestId &&
    ((glance.lane = .hostedLane) || modelMemoryOk glance.models glance.memoryOk modelName)

/-- `_try_start`, with no step of another process in between. -/
def tryStart (now : ℚ) (requestId : ℕ) (modelName : Option String)
  (rows : List QueueRow) : Except ConstraintError (List QueueRow × Bool) :=
  if mayStart config glance requestId modelName rows then startTransaction config glance now requestId rows
  else .ok (rows, false)

end

/-- A place that a living process tends: the supervisor renews its row. -/
structure Place where
  process : ℕ
  requestId : ℕ
deriving DecidableEq

/-- A `_try_start` that has read the clock. -/
structure Attempt where
  requestId : ℕ
  lane : Lane
  cutoff : ℚ
deriving DecidableEq

/-- The table, the shared clock, and what the living processes hold. -/
structure QueueState where
  rows : List QueueRow
  nextSeq : ℕ
  nextRequest : ℕ
  clock : ℚ
  places : List Place
  attempts : List Attempt

namespace QueueState

section

variable (state : QueueState)

def cutoff : ℚ := state.clock - leaseSeconds

def tended (requestId : ℕ) : Prop := ∃ place ∈ state.places, place.requestId = requestId

def heldBy (process : ℕ) : List ℕ := (state.places.filter (·.process = process)).map Place.requestId

def forgetProcess (process : ℕ) : QueueState := { state with places := state.places.filter (·.process ≠ process) }

end

end QueueState

/-- The steps of any number of processes.  `move` is a `release` and an `enter`,
with other steps in between.  `lose` is a release whose deletion failed, `crash`
the end of a process that releases nothing.  The checks of `_try_start` before
its transaction only end an attempt early, so a run in which they do is one in
which the attempt's `start` does not come. -/
inductive QueueAction
  | tick (now : ℚ)
  | enter (process pid : ℕ) (now : ℚ) (entry : Entry)
  | setModel (requestId : ℕ) (modelName : Option String)
  | readClock (requestId : ℕ) (lane : Lane)
  | start (attempt : Attempt) (now : ℚ) (memoryOk : Bool) (models : List AiModel)
  | renew (now : ℚ) (requestId : ℕ)
  | release (process requestId : ℕ)
  | lose (process requestId : ℕ)
  | releaseProcess (process : ℕ)
  | crash (process : ℕ)
  | expireProcess (now : ℚ) (pid : ℕ)

def Attempt.glance (attempt : Attempt) (memoryOk : Bool) (models : List AiModel) : Glance :=
  { cutoff := attempt.cutoff
    lane := attempt.lane
    memoryOk := memoryOk
    models := models }

def queueNext (config : Config) (state : QueueState) : QueueAction -> QueueState
  | .tick now => { state with clock := now }
  | .enter process pid now entry =>
    match enter config now pid state.nextRequest state.nextSeq entry state.rows with
    | none => state
    | some rows =>
      { state with
        rows := rows
        nextSeq := state.nextSeq + 1
        nextRequest := state.nextRequest + 1
        places := ⟨process, state.nextRequest⟩ :: state.places }
  | .setModel requestId modelName => { state with rows := setModel requestId modelName state.rows }
  | .readClock requestId lane => { state with attempts := ⟨requestId, lane, state.cutoff⟩ :: state.attempts }
  | .start attempt now memoryOk models =>
    match startTransaction config (attempt.glance memoryOk models) now attempt.requestId state.rows with
    | .error _ => { state with attempts := state.attempts.erase attempt }
    | .ok (rows, _) =>
      { state with
        rows := rows
        attempts := state.attempts.erase attempt }
  | .renew now requestId => { state with rows := renew now requestId state.rows }
  | .release process requestId =>
    { state with
      rows := release requestId state.rows
      places := state.places.erase ⟨process, requestId⟩ }
  | .lose process requestId => { state with places := state.places.erase ⟨process, requestId⟩ }
  | .releaseProcess process =>
    { state.forgetProcess process with
      rows := (state.heldBy process).foldl (fun rows requestId => release requestId rows) state.rows }
  | .crash process => state.forgetProcess process
  | .expireProcess now pid => { state with rows := expireProcess now pid state.rows }

/-- What a step relies on: the clock does not go back and was read no later than
now, the process that acts is alive, and a named owner has a name. -/
def Allowed (state : QueueState) : QueueAction -> Prop
  | .tick now => state.clock <= now
  | .enter _ _ now entry => now <= state.clock /\ entry.owner ≠ some ""
  | .setModel requestId _ => state.tended requestId
  | .readClock requestId _ => state.tended requestId
  | .start attempt now _ _ => attempt ∈ state.attempts /\ state.tended attempt.requestId /\ now <= state.clock
  | .renew now requestId => state.tended requestId /\ now <= state.clock
  | .release process requestId => (⟨process, requestId⟩ : Place) ∈ state.places
  | .lose process requestId => (⟨process, requestId⟩ : Place) ∈ state.places
  | .expireProcess now _ => now <= state.clock
  | _ => True

def LeasesKept (state : QueueState) : Prop := ∀ row ∈ state.rows, state.tended row.requestId -> row.live state.cutoff

def queueMachine (config : Config) : Machine QueueState QueueAction where
  initial := fun state => state.rows = [] /\ state.places = [] /\ state.attempts = []
  enabled := fun state action => Allowed state action /\ LeasesKept (queueNext config state action)
  next := queueNext config

instance (state : QueueState) (requestId : ℕ) : Decidable (state.tended requestId) :=
  inferInstanceAs (Decidable (∃ place ∈ state.places, place.requestId = requestId))

instance (state : QueueState) : Decidable (LeasesKept state) :=
  inferInstanceAs (Decidable (∀ row ∈ state.rows, state.tended row.requestId -> row.live state.cutoff))

instance (state : QueueState) (action : QueueAction) : Decidable (Allowed state action) := by
  cases action <;> unfold Allowed <;> infer_instance

instance (config : Config) (state : QueueState) (action : QueueAction) :
  Decidable ((queueMachine config).enabled state action) :=
  inferInstanceAs (Decidable (Allowed state action /\ LeasesKept (queueNext config state action)))

def emptyQueue : QueueState := ⟨[], 0, 0, 0, [], []⟩

end BananaChat.Queue
