import Mathlib.Data.Rat.Floor
import BananaChat.Foundation.Rows
import BananaChat.Foundation.Text

namespace BananaChat.Agents

open Foundation

/-!
# The tables of agent tasks

A task that is being worked on holds a lease, the token of its run and the time of its last
heartbeat.
-/

inductive TaskStatus
  | queued
  | running
  | paused
  | finished
  | failed
  | stopped
  | outOfBudget
  | interrupted
deriving DecidableEq

/-- `ACTIVE_STATES`. -/
def TaskStatus.isActive : TaskStatus -> Bool
  | .queued | .running | .paused => true
  | _ => false

/-- `TERMINAL_STATES`. -/
def TaskStatus.isTerminal (status : TaskStatus) : Bool := !status.isActive

/-- `LANE_STATES`. -/
inductive LaneStatus
  | queued
  | running
  | finished
  | failed
  | stopped
  | outOfBudget
deriving DecidableEq

def LaneStatus.isOpen : LaneStatus -> Bool
  | .queued | .running => true
  | _ => false

/-- `STEP_KINDS`. -/
inductive StepKind
  | user
  | assistant
  | tool
  | notice
  | error
  | summary
deriving DecidableEq

/-- A row of `agent_tasks`. -/
structure TaskRow where
  id : ℕ
  userId : ℕ
  title : Text
  prompt : Text
  status : TaskStatus
  modelId : Option ℕ
  modelName : Text
  swarm : Bool
  sandboxId : Option ℕ
  sandboxExpiresAt : Option ℤ
  ownerToken : Option ℕ
  heartbeatAt : Option ℚ
  stopRequested : ℕ
  runs : ℕ
  stepsUsed : ℕ
  toolCalls : ℕ
  tokensIn : ℕ
  tokensOut : ℕ
  summary : Text
  error : Text
  notice : Text
  createdAt : ℤ
  startedAt : Option ℤ
  updatedAt : ℤ
  finishedAt : Option ℤ
deriving DecidableEq

structure StepDetail where
  agent : ℕ
  thinking : Text
  toolName : Option Text
  toolArgs : Option Text
  toolCalls : Option Text
  toolResult : Option Text
  toolStatus : Option Text
  tokensIn : ℕ
  tokensOut : ℕ
  durationMs : ℕ
deriving DecidableEq

/-- A row of `agent_steps`. -/
structure StepRow where
  id : ℕ
  taskId : ℕ
  kind : StepKind
  content : Text
  detail : StepDetail
  createdAt : ℤ
deriving DecidableEq

/-- A row of `agent_lanes`. -/
structure LaneRow where
  taskId : ℕ
  agent : ℕ
  title : Text
  instructions : Text
  status : LaneStatus
  stepsUsed : ℕ
  summary : Text
  createdAt : ℤ
  finishedAt : Option ℤ
deriving DecidableEq

/-- A row of `agent_messages`. -/
structure MessageRow where
  id : ℕ
  taskId : ℕ
  userId : ℕ
  content : Text
  createdAt : ℤ
  consumedAt : Option ℤ
deriving DecidableEq

/-- The four tables, with the last id that the two `AUTOINCREMENT` columns have given. -/
structure TaskStore where
  tasks : List TaskRow
  steps : List StepRow
  lanes : List LaneRow
  messages : List MessageRow
  lastStep : ℕ
  lastMessage : ℕ

def TaskStore.empty : TaskStore := ⟨[], [], [], [], 0, 0⟩

def leaseSeconds : ℚ := 60

/-- `_cutoff`. -/
def leaseCutoff (now : ℚ) : ℚ := now - leaseSeconds

/-- `db.now`. -/
def dbNow (now : ℚ) : ℤ := ⌊now⌋

def clip (value : Text) (limit : ℕ) : Text := value.take limit

def maxText : ℕ := 200000

section

variable (now : ℚ) (row : TaskRow)

/-- `_ACTIVE_SQL`. -/
def TaskRow.leased : Bool :=
  row.status.isActive && row.ownerToken.isSome && match row.heartbeatAt with
    | none => false
    | some heartbeat => leaseCutoff now <= heartbeat

def TaskRow.isStale : Bool := row.ownerToken.isSome && (row.heartbeatAt.getD 0 < leaseCutoff now)

/-- Whether a task has a token whose lease is not over: what `resume` refuses. -/
def TaskRow.held : Bool := row.ownerToken.isSome && (leaseCutoff now <= row.heartbeatAt.getD 0)

/-- Rows that `recover_stale` may list. -/
def TaskRow.abandoned : Bool :=
  row.ownerToken.isSome && match row.heartbeatAt with
    | none => false
    | some heartbeat => heartbeat < leaseCutoff now

end

/-- `Busy`, with its scope, and the other exceptions. -/
inductive TaskError
  | busyUser
  | busySite
  | busyMessages
  /-- `LookupError`. -/
  | missing
  /-- `ValueError`. -/
  | badValue
  /-- A constraint of the tables. -/
  | integrity

namespace TaskStore

variable (store : TaskStore)

def get (taskId : ℕ) : Option TaskRow := store.tasks.find? (·.id = taskId)

/-- `active_count` of everyone, or of one user. -/
def activeCount (now : ℚ) (userId : Option ℕ) : ℕ :=
  store.tasks.countP (fun row => row.leased now && match userId with
    | none => true
    | some userId => row.userId = userId)

def checkCapacity (now : ℚ) (userId : ℕ) (maxUser : Option ℕ) (maxSite : ℕ) : Except TaskError Unit :=
  if (match maxUser with
      | none => false
      | some limit => limit <= store.activeCount now (some userId)) = true then .error .busyUser
  else if maxSite <= store.activeCount now none then .error .busySite
  else .ok ()

/-- Rows of `agent_tasks` change. -/
def updateTasks (selected : TaskRow -> Bool) (change : TaskRow -> TaskRow) : TaskStore :=
  { store with tasks := Rows.updateWhere selected change store.tasks }

/-- A row of `agent_steps` is inserted. -/
def insertStep (taskId : ℕ) (kind : StepKind) (content : Text) (detail : StepDetail) (createdAt : ℤ) : TaskStore :=
  { store with
    steps := store.steps ++ [⟨store.lastStep + 1, taskId, kind, content, detail, createdAt⟩]
    lastStep := store.lastStep + 1 }

end TaskStore

def plainDetail : StepDetail := ⟨0, [], none, none, none, none, none, 0, 0, 0⟩

/-- What `create` is given. -/
structure NewTask where
  id : ℕ
  userId : ℕ
  title : Text
  prompt : Text
  modelId : Option ℕ
  modelName : Text
  swarm : Bool

def NewTask.row (task : NewTask) (ownerToken : ℕ) (now : ℚ) : TaskRow :=
  ⟨task.id, task.userId, clip task.title 200, clip task.prompt maxText, .queued, task.modelId, task.modelName, task.swarm,
    none, none, some ownerToken, some now, 0, 1, 0, 0, 0, 0, [], [], [], dbNow now, none, dbNow now, none⟩

namespace TaskStore

variable (store : TaskStore)

def create (task : NewTask) (ownerToken : ℕ) (maxUser : Option ℕ) (maxSite : ℕ) (now : ℚ) : Except TaskError TaskStore :=
  match store.checkCapacity now task.userId maxUser maxSite with
  | .error error => .error error
  | .ok _ =>
    if (store.get task.id).isSome then .error .integrity
    else
      .ok ({ store with tasks := store.tasks ++ [task.row ownerToken now] }.insertStep task.id .user
        (clip task.prompt maxText) plainDetail (dbNow now))

/-- What `resume` makes of a row. -/
def resumed (ownerToken : ℕ) (modelId : Option ℕ) (modelName : Option Text) (now : ℚ) (row : TaskRow) : TaskRow :=
  { row with
    status := .queued
    ownerToken := some ownerToken
    heartbeatAt := some now
    stopRequested := 0
    runs := row.runs + 1
    error := []
    notice := []
    finishedAt := none
    updatedAt := dbNow now
    modelId := modelId.or row.modelId
    modelName := modelName.getD row.modelName }

/-- `resume`; none where a run already has the task. -/
def resume (taskId ownerToken : ℕ) (maxUser : Option ℕ) (maxSite : ℕ) (modelId : Option ℕ) (modelName : Option Text) (now : ℚ) :
  Except TaskError (Option TaskStore) :=
  match store.get taskId with
  | none => .error .missing
  | some row =>
    if row.held now then .ok none
    else
      match store.checkCapacity now row.userId maxUser maxSite with
      | .error error => .error error
      | .ok _ =>
        .ok (some (store.updateTasks (·.id = taskId) (resumed ownerToken modelId modelName now)))

/-- The condition `id=? AND owner_token=?`. -/
def owned (taskId token : ℕ) (row : TaskRow) : Bool := row.id = taskId /\ row.ownerToken = some token

def owns (taskId token : ℕ) : Bool := store.tasks.any (owned taskId token)

def setStatus (taskId token : ℕ) (status : TaskStatus) (notice : Option Text) (started : Bool) (now : ℚ) :
  Except TaskError TaskStore :=
  if status.isActive then
    .ok (store.updateTasks (owned taskId token) (fun row =>
      { row with
        status := status
        updatedAt := dbNow now
        startedAt := if started then some (row.startedAt.getD (dbNow now)) else row.startedAt
        notice := match notice with
          | none => row.notice
          | some text => clip text 500 }))
  else .error .badValue

/-- `set_sandbox`, with a token or without. -/
def setSandbox (taskId : ℕ) (token : Option ℕ) (sandboxId : Option ℕ) (expiresAt : Option ℤ) : TaskStore :=
  store.updateTasks
    (fun row => match token with
      | none => row.id = taskId
      | some token => owned taskId token row)
    (fun row => { row with sandboxId := sandboxId, sandboxExpiresAt := expiresAt })

def addUsage (taskId token steps toolCalls : ℕ) (tokensIn tokensOut : ℤ) (now : ℚ) : TaskStore :=
  store.updateTasks (owned taskId token) (fun row =>
    { row with
      stepsUsed := row.stepsUsed + steps
      toolCalls := row.toolCalls + toolCalls
      tokensIn := row.tokensIn + tokensIn.toNat
      tokensOut := row.tokensOut + tokensOut.toNat
      updatedAt := dbNow now })

/-- The renewal of `lease_check`. -/
def renewLease (taskId token : ℕ) (now : ℚ) : TaskStore :=
  store.updateTasks (owned taskId token) (fun row => { row with heartbeatAt := some now })

def ended (status : TaskStatus) (error : Text) (sandboxExpiresAt : Option ℤ) (now : ℚ) (row : TaskRow) : TaskRow :=
  { row with
    status := status
    error := error
    notice := []
    ownerToken := none
    heartbeatAt := none
    stopRequested := 0
    finishedAt := some (dbNow now)
    updatedAt := dbNow now
    sandboxExpiresAt := if row.sandboxId.isSome then sandboxExpiresAt else none }

def finish (taskId token : ℕ) (status : TaskStatus) (summary error : Text) (sandboxExpiresAt : Option ℤ) (now : ℚ) :
  Except TaskError TaskStore :=
  if status.isTerminal then
    .ok (store.updateTasks (owned taskId token) (fun row =>
      { ended status (clip error 1000) sandboxExpiresAt now row with
        summary := if summary = [] then row.summary else clip summary 50000 }))
  else .error .badValue

/-- What `add_step` stores of a text and of what goes with it. -/
def clippedDetail (detail : StepDetail) : StepDetail :=
  { detail with
    thinking := clip detail.thinking 50000
    toolArgs := detail.toolArgs.map (clip · maxText)
    toolCalls := detail.toolCalls.map (clip · maxText)
    toolResult := detail.toolResult.map (clip · 64000) }

/-- `add_step` with a token; none where the lease was lost. -/
def addStep (taskId token : ℕ) (kind : StepKind) (content : Text) (detail : StepDetail) (now : ℚ) : Option TaskStore :=
  if store.owns taskId token then
    some (store.insertStep taskId kind (clip content maxText) (clippedDetail detail) (dbNow now))
  else none

def stopLanes (taskId : ℕ) (now : ℚ) : TaskStore :=
  { store with
    lanes := Rows.updateWhere (fun lane => (lane.taskId = taskId) && lane.status.isOpen)
      (fun lane => { lane with status := .stopped, finishedAt := some (dbNow now) }) store.lanes }

/-- `recover_stale` for one listed task. -/
def recoverTask (error : Text) (status : TaskStatus) (keepUntil : ℤ) (now : ℚ) (taskId : ℕ) : TaskStore :=
  ((store.updateTasks (·.id = taskId) (ended status error (some keepUntil) now)).stopLanes taskId
    now).insertStep taskId .error error plainDetail (dbNow now)

/-- `recover_stale`, with the tasks that its query listed. -/
def recoverStale (listed : List ℕ) (error : Text) (status : TaskStatus) (keepUntil : ℤ) (now : ℚ) : TaskStore :=
  listed.foldl (fun store taskId => store.recoverTask error status keepUntil now taskId) store

/-- What the query of `recover_stale` may list: abandoned tasks, at most 200, each once. -/
def Listed (listed : List ℕ) (now : ℚ) : Prop :=
  listed.Nodup /\ listed.length <= 200 /\ ∀ taskId ∈ listed, ∃ row ∈ store.tasks, row.id = taskId /\ row.abandoned now

def nextLaneIndex (taskId : ℕ) : ℕ := ((store.lanes.filter (·.taskId = taskId)).map LaneRow.agent).foldl max 0 + 1

def addLane (taskId agent : ℕ) (title instructions : Text) (now : ℚ) : Except TaskError TaskStore :=
  if (store.get taskId).isNone \/ store.lanes.any (fun lane => lane.taskId = taskId /\ lane.agent = agent) then
    .error .integrity
  else
    .ok { store with
      lanes := store.lanes ++ [⟨taskId, agent, clip title 200, clip instructions 20000, .queued, 0, [], dbNow now, none⟩] }

def updateLane (taskId agent : ℕ) (status : Option LaneStatus) (stepsUsed : Option ℕ) (summary : Option Text) (now : ℚ) :
  TaskStore :=
  { store with
    lanes := Rows.updateWhere (fun lane => lane.taskId = taskId /\ lane.agent = agent)
      (fun lane =>
        { lane with
          status := status.getD lane.status
          stepsUsed := stepsUsed.getD lane.stepsUsed
          summary := match summary with
            | none => lane.summary
            | some text => clip text 20000
          finishedAt := match status with
            | none => lane.finishedAt
            | some status => if status.isOpen then lane.finishedAt else some (dbNow now) })
      store.lanes }

def pending (taskId : ℕ) : List MessageRow :=
  store.messages.filter (fun row => row.taskId = taskId /\ row.consumedAt = none)

def addMessage (taskId userId : ℕ) (content : Text) (maxPending : Option ℕ) (now : ℚ) : Except TaskError TaskStore :=
  if (match maxPending with
      | none => false
      | some limit => limit <= (store.pending taskId).length) = true then .error .busyMessages
  else if (store.get taskId).isNone then .error .integrity
  else
    .ok { store with
      messages := store.messages ++ [⟨store.lastMessage + 1, taskId, userId, clip content 50000, dbNow now, none⟩]
      lastMessage := store.lastMessage + 1 }

def consume (taskId : ℕ) (now : ℚ) (row : MessageRow) : TaskStore :=
  { store with
    messages := Rows.updateWhere (·.id = row.id)
      (fun other => { other with consumedAt := some (dbNow now) }) store.messages }.insertStep taskId .user row.content
    plainDetail (dbNow now)

/-- The rows that `take_messages` reads. -/
def taken (taskId token limit : ℕ) : List MessageRow :=
  if store.owns taskId token then (store.pending taskId).take limit else []

def takeMessages (taskId token limit : ℕ) (now : ℚ) : TaskStore :=
  (store.taken taskId token limit).foldl (fun store row => store.consume taskId now row) store

end TaskStore
end BananaChat.Agents
