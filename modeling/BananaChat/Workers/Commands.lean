import Mathlib.Data.List.Sort
import BananaChat.Allowances.AmountText
import BananaChat.Downloads.Jobs

namespace BananaChat.Workers.Commands

open Foundation Downloads Rows

/-!
# Model commands

An administrator queues a command for a worker: download a model, or remove one.
-/

def trustedRegistries : List String := ["registry.ollama.ai", "hf.co", "huggingface.co"]

def hubHosts : List String := ["hf.co", "huggingface.co"]

/-- `host.lower() in hosts`, for a host of ASCII characters. -/
def oneOf (hosts : List String) (host : List Char) : Bool := String.ofList (host.map Char.toLower) ∈ hosts

def hubAddress : List Char := "https://huggingface.co/".toList

def hubName : List Char := "hf.co/".toList

/-- One of the characters `MODEL_NAME_RE` allows first. -/
def alphanumeric (char : Char) : Bool :=
  ('a' <= char && char <= 'z') || ('A' <= char && char <= 'Z') || ('0' <= char && char <= '9')

/-- `MODEL_NAME_RE`. -/
def isModelName : List Char -> Bool
  | [] => false
  | first :: rest =>
    alphanumeric first && (rest.length < 300) &&
      rest.all (fun char => alphanumeric char || char = ':' || char = '.' || char = '_' || char = '/' || char = '-')

def doubled (mark : Char) (name : List Char) : Bool := (name.zip name.tail).any (fun pair => pair = (mark, mark))

def registryHost (name : List Char) : Option (List Char) :=
  let path :=
    if ':' ∈ lastSegment name then (name.reverse.dropWhile (· ≠ ':')).tail.reverse else name
  let parts := path.splitOn '/'
  if 2 < parts.length then some (['/'].intercalate (parts.take (parts.length - 2))) else none

inductive NameError
  | modelName
  | registry
  | hubName

def validateOllamaName (name : String) : Except NameError String :=
  let name := Allowances.strip name.toList
  let name := if hubAddress.isPrefixOf name then hubName ++ name.drop hubAddress.length else name
  if isModelName name = false \/ doubled '.' name \/ doubled '/' name \/ name.getLast? = some '/' \/
      name.getLast? = some ':' then
    .error .modelName
  else
    let first := name.takeWhile (· ≠ '/')
    let rest := (name.drop first.length).tail
    if rest ≠ [] /\ ('.' ∈ first \/ ':' ∈ first) /\ oneOf trustedRegistries first = false then .error .registry
    else if (registryHost name).any (!oneOf trustedRegistries ·) then .error .registry
    else if oneOf hubHosts first /\ '/' ∉ rest then .error .hubName
    else .ok (canonicalOllamaName (String.ofList name))

def modelAliases (name : String) : List String :=
  let name := String.ofList (Allowances.strip name.toList)
  if name = "" then []
  else if ':' ∉ lastSegment name.toList then [name, name ++ latest]
  else if latest.toList.isSuffixOf name.toList then [name, withoutLatest name]
  else [name]

/-- Ollama treats an omitted tag as `:latest`. -/
def SameModel (first second : String) : Prop := canonicalOllamaName first = canonicalOllamaName second

instance (first second : String) : Decidable (SameModel first second) :=
  inferInstanceAs (Decidable (canonicalOllamaName first = canonicalOllamaName second))

inductive Kind
  | pull
  | delete
deriving DecidableEq

inductive Status
  | queued
  | running
  | done
  | failed
  | cancelled
deriving DecidableEq

/-- `LIVE_COMMANDS`. -/
def Status.live : Status -> Bool
  | .queued => true
  | .running => true
  | _ => false

/-- A row of `worker_commands`. -/
structure Command where
  id : ℕ
  workerId : ℕ
  kind : Kind
  modelName : String
  status : Status
  progressPct : ℤ
  detail : String
  bytesDone : Option ℕ
  bytesTotal : Option ℕ
  requestedBy : Option ℕ
  createdAt : ℚ
  startedAt : Option ℚ
  updatedAt : ℚ
  finishedAt : Option ℚ
  error : Option String
deriving DecidableEq

/-- What commands read of a worker: `features` are those of its system
information, `models` those it advertises. -/
structure Worker where
  id : ℕ
  name : String
  disabled : Bool
  features : List String
  models : List String
  lastHeartbeat : Option ℚ

def maxModels : ℕ := 512

def Worker.advertisedModels (worker : Worker) : List String := (worker.models.filter (· ≠ "")).take maxModels

def feature : String := "model_commands"

def Worker.supports (worker : Worker) : Bool := feature ∈ worker.features

/-- `insert_command`. -/
def newCommand (id workerId : ℕ) (kind : Kind) (model : String) (requestedBy : Option ℕ) (now : ℚ) : Command where
  id := id
  workerId := workerId
  kind := kind
  modelName := model
  status := .queued
  progressPct := 0
  detail := "Waiting for the worker."
  bytesDone := none
  bytesTotal := none
  requestedBy := requestedBy
  createdAt := now
  startedAt := none
  updatedAt := now
  finishedAt := none
  error := none

def command (commandId : ℕ) (commands : List Command) : Option Command := commands.find? (·.id = commandId)

def liveCommandFor (workerId : ℕ) (model : String) (commands : List Command) : Option Command :=
  commands.find? (fun row => (row.workerId = workerId /\ row.modelName = model) && row.status.live)

def queuedCommands (workerId limit : ℕ) (commands : List Command) : List Command :=
  ((commands.filter fun row => row.workerId = workerId /\ row.status = .queued).insertionSort
    (fun first second => first.createdAt <= second.createdAt)).take limit

def runningCommands (workerId : ℕ) (commands : List Command) : List Command :=
  commands.filter (fun row => row.workerId = workerId /\ row.status = .running)

section

variable (commandId workerId : ℕ)

/-- The `WHERE` of `start_command`. -/
def startable (row : Command) : Bool := row.id = commandId /\ row.workerId = workerId /\ row.status = .queued

/-- `start_command`: the table, and its rowcount. -/
def startCommand (now : ℚ) (commands : List Command) : List Command × ℕ :=
  (updateWhere (startable commandId workerId)
      (fun row => { row with status := .running, startedAt := some now, updatedAt := now, detail := "Starting…" }) commands,
    affected (startable commandId workerId) commands)

def updateCommand (now : ℚ) (percent : ℤ) (detail : String) (bytesDone bytesTotal : Option ℕ)
  (commands : List Command) : List Command :=
  updateWhere (fun row => row.id = commandId /\ row.workerId = workerId /\ row.status = .running)
    (fun row =>
      { row with
        progressPct := max 0 (min 100 percent)
        detail := String.ofList (detail.toList.take 500)
        bytesDone := bytesDone.or row.bytesDone
        bytesTotal := bytesTotal.or row.bytesTotal
        updatedAt := now })
    commands

end

inductive Outcome
  | done
  | failed
  | cancelled
deriving DecidableEq

def Outcome.status : Outcome -> Status
  | .done => .done
  | .failed => .failed
  | .cancelled => .cancelled

/-- The `WHERE` of `finish_command`. -/
def finishable (commandId : ℕ) (onlyFrom : List Status) (row : Command) : Bool :=
  row.id = commandId /\ row.status ∈ onlyFrom

def finishCommand (commandId : ℕ) (outcome : Outcome) (now : ℚ) (error detail : Option String) (onlyFrom : List Status)
  (commands : List Command) : List Command :=
  updateWhere (finishable commandId onlyFrom)
    (fun row =>
      { row with
        status := outcome.status
        finishedAt := some now
        updatedAt := now
        error := error
        detail := detail.getD row.detail
        progressPct := if outcome = .done then 100 else row.progressPct })
    commands

def deleteFinishedCommands (before : ℚ) (commands : List Command) : List Command :=
  deleteWhere (fun row => !row.status.live && (row.finishedAt.getD row.createdAt < before)) commands

def queueSeconds : ℚ := 24 * 3600

def stallSeconds : ℚ := 15 * 60

def lostSeconds : ℚ := 60

def handout : ℕ := 2

def keepSeconds : ℚ := 7 * 86400

def heartbeatFreshSeconds : ℚ := 45

inductive CommandError
  | unknownCommand
  | noSuchWorker
  | workerDisabled
  | cannotManage (worker : String)
  | invalidName (error : NameError)
  | notAdvertised (worker model : String)
  | alreadyHas (model : String) (kind : Kind) (status : Status) (worker : String)
  | notRetried

/-- A call of `queue` or `retry` that has not returned.  `checked` is the name
its command gets, once the worker was read. -/
structure Call where
  id : ℕ
  workerId : ℕ
  kind : Option Kind
  model : String
  requestedBy : Option ℕ
  checked : Option (Kind × String × String)

/-- The checks of `queue` before its transaction: the kind, the name to store
and the worker's name. -/
def checkCall (workers : List Worker) (call : Call) : Except CommandError (Kind × String × String) :=
  match call.kind with
  | none => .error .unknownCommand
  | some kind =>
    match workers.find? (·.id = call.workerId) with
    | none => .error .noSuchWorker
    | some worker =>
      if worker.disabled then .error .workerDisabled
      else if worker.supports = false then .error (.cannotManage worker.name)
      else
        match kind with
        | .pull =>
          match validateOllamaName call.model with
          | .error error => .error (.invalidName error)
          | .ok model => .ok (.pull, model, worker.name)
        | .delete =>
          let model := String.ofList (Allowances.strip call.model.toList)
          if model = "" \/ (model ∉ worker.advertisedModels /\
              ((modelAliases model).any (· ∈ worker.advertisedModels)) = false) then
            .error (.notAdvertised worker.name model)
          else .ok (.delete, model, worker.name)

/-- The transaction of `queue`. -/
def placeCommand (commandId workerId : ℕ) (kind : Kind) (model workerName : String) (requestedBy : Option ℕ) (now : ℚ)
  (commands : List Command) : Except CommandError (List Command) :=
  match liveCommandFor workerId model commands with
  | some existing => .error (.alreadyHas model existing.kind existing.status workerName)
  | none => .ok (commands ++ [newCommand commandId workerId kind model requestedBy now])

def cancel (commandId : ℕ) (now : ℚ) : List Command -> List Command :=
  finishCommand commandId .cancelled now none (some "Cancelled by an administrator.") [.queued, .running]

def lost (running : List ℕ) (now : ℚ) (row : Command) : Bool :=
  row.id ∉ running /\ lostSeconds < now - row.startedAt.getD now

def failLost (running : List ℕ) (now : ℚ) (active commands : List Command) : List Command :=
  (active.filter (lost running now)).foldl
    (fun table row =>
      finishCommand row.id .failed now (some "The worker restarted before it finished. Retry it.") none [.running] table)
    commands

def dropLost (workerId : ℕ) (running : Option (List ℕ)) (now : ℚ) (commands : List Command) : List Command :=
  match running with
  | none => commands
  | some running => failLost running now (runningCommands workerId commands) commands

def handOut (workerId : ℕ) (now : ℚ) : List Command -> List Command -> List Command × List Command
  | [], commands => (commands, [])
  | row :: rest, commands =>
    let started := startCommand row.id workerId now commands
    let result := handOut workerId now rest started.1
    (result.1, if started.2 = 0 then result.2 else row :: result.2)

/-- `heartbeat`, of a worker with these features: the table, and the commands in
the reply. -/
def heartbeat (workerId : ℕ) (features : List String) (running : Option (List ℕ)) (now : ℚ) (commands : List Command) :
  List Command × Option (List Command) :=
  if feature ∉ features then (commands, none)
  else
    let table := dropLost workerId running now commands
    if handout <= (runningCommands workerId table).length then (table, some [])
    else
      let handed := handOut workerId now (queuedCommands workerId handout table) table
      (handed.1, some handed.2)

/-- What a worker reports: `STATUSES`. -/
inductive Reported
  | running
  | done
  | failed

structure Report where
  status : Reported
  percent : ℤ
  detail : String
  error : String
  completed : Option ℕ
  total : Option ℕ

/-- The value of `text or default`. -/
def textOr (text default : String) : String := if text = "" then default else text

/-- `report`: the table, and whether the worker goes on; nothing for a command
that is not its own. -/
def report (workerId commandId : ℕ) (body : Report) (now : ℚ) (commands : List Command) : List Command × Option Bool :=
  match command commandId commands with
  | none => (commands, none)
  | some row =>
    if row.workerId ≠ workerId then (commands, none)
    else if row.status ≠ .running then (commands, some false)
    else
      match body.status with
      | .running =>
        (updateCommand commandId workerId now body.percent (textOr body.detail "Working…") body.completed body.total
          commands, some true)
      | .done => (finishCommand commandId .done now none (some (textOr body.detail "Done.")) [.running] commands, some true)
      | .failed =>
        (finishCommand commandId .failed now (some (textOr body.error "The worker could not run it."))
          (if body.detail = "" then none else some body.detail) [.running] commands, some true)

/-- `UPDATE worker_commands SET detail=? WHERE id=? AND status='queued'`. -/
def noteWaiting (commandId : ℕ) (detail : String) (commands : List Command) : List Command :=
  updateWhere (fun row => row.id = commandId /\ row.status = .queued) (fun row => { row with detail := detail })
    commands

section

variable (workers : List Worker) (now : ℚ) (commands : List Command)

/-- What `maintain` does for one live row. -/
def maintainRow (row : Command) : List Command :=
  if row.status = .running /\ stallSeconds < now - row.updatedAt then
    finishCommand row.id .failed now
      (some "The worker stopped reporting progress (it restarted or lost its connection). Retry it.") none [.running]
      commands
  else if row.status ≠ .queued then commands
  else
    match workers.find? (·.id = row.workerId) with
    | none => commands
    | some worker =>
      if queueSeconds < now - row.createdAt then
        finishCommand row.id .failed now (some "The worker did not come online in time.") none [.queued] commands
      else if worker.disabled then noteWaiting row.id "Waiting: the worker is disabled." commands
      else if worker.lastHeartbeat.all (· < now - heartbeatFreshSeconds) then
        noteWaiting row.id "Waiting for the worker to come online." commands
      else commands

def maintain : List Command :=
  deleteFinishedCommands (now - keepSeconds)
    ((commands.filter (·.status.live)).foldl (maintainRow workers now) commands)

end

structure State where
  workers : List Worker
  commands : List Command
  calls : List Call
  nextCommand : ℕ
  nextCall : ℕ

/-- The steps.  `features` of a heartbeat are those of its request or those the
worker's row had. -/
inductive Action
  | queue (workerId : ℕ) (kind : Option Kind) (model : String) (requestedBy : Option ℕ)
  | retry (commandId : ℕ) (requestedBy : Option ℕ)
  | check (call : ℕ)
  | place (call : ℕ) (now : ℚ)
  | cancel (commandId : ℕ) (now : ℚ)
  | heartbeat (workerId : ℕ) (features : List String) (running : Option (List ℕ)) (now : ℚ)
  | report (workerId commandId : ℕ) (body : Report) (now : ℚ)
  | maintain (now : ℚ)
  | record (worker : Worker)
  | remove (workerId : ℕ)

def State.call (state : State) (callId : ℕ) : Option Call := state.calls.find? (·.id = callId)

def State.returned (state : State) (callId : ℕ) : List Call := deleteWhere (·.id = callId) state.calls

def State.begin (state : State) (workerId : ℕ) (kind : Option Kind) (model : String) (requestedBy : Option ℕ) : State :=
  { state with
    calls := state.calls ++ [⟨state.nextCall, workerId, kind, model, requestedBy, none⟩]
    nextCall := state.nextCall + 1 }

def next (state : State) : Action -> State
  | .queue workerId kind model requestedBy => state.begin workerId kind model requestedBy
  | .retry commandId requestedBy =>
    match command commandId state.commands with
    | none => state
    | some row =>
      if row.status = .failed \/ row.status = .cancelled then
        state.begin row.workerId (some row.kind) row.modelName requestedBy
      else state
  | .check callId =>
    match state.call callId with
    | none => state
    | some call =>
      match checkCall state.workers call with
      | .error _ => { state with calls := state.returned callId }
      | .ok checked =>
        { state with
          calls := updateWhere (·.id = callId)
            (fun other => { other with checked := some checked }) state.calls }
  | .place callId now =>
    match state.call callId with
    | none => state
    | some call =>
      match call.checked with
      | none => state
      | some checked =>
        match placeCommand state.nextCommand call.workerId checked.1 checked.2.1 checked.2.2 call.requestedBy now
          state.commands with
        | .error _ => { state with calls := state.returned callId }
        | .ok commands =>
          { state with commands := commands, nextCommand := state.nextCommand + 1, calls := state.returned callId }
  | .cancel commandId now => { state with commands := cancel commandId now state.commands }
  | .heartbeat workerId features running now =>
    { state with commands := (heartbeat workerId features running now state.commands).1 }
  | .report workerId commandId body now => { state with commands := (report workerId commandId body now state.commands).1 }
  | .maintain now => { state with commands := maintain state.workers now state.commands }
  | .record worker =>
    { state with
      workers := deleteWhere (·.id = worker.id) state.workers ++ [worker] }
  | .remove workerId =>
    { state with
      workers := deleteWhere (·.id = workerId) state.workers
      commands := deleteWhere (·.workerId = workerId) state.commands }

def emptyState : State := ⟨[], [], [], 0, 0⟩

def commandMachine : Machine State Action where
  initial := fun state => state = emptyState
  enabled := fun _ _ => True
  next := next

inductive Event
  | queued (command workerId : ℕ)
  | handed (workerId command : ℕ)
deriving DecidableEq

def events (state : State) (action : Action) : List Event :=
  let inserted := (next state action).commands.filter (·.id ∉ state.commands.map Command.id)
  let reply :=
    match action with
    | .heartbeat workerId features running now =>
      ((heartbeat workerId features running now state.commands).2.getD []).map (Event.handed workerId ·.id)
    | _ => []
  inserted.map (fun row => Event.queued row.id row.workerId) ++ reply

end BananaChat.Workers.Commands
