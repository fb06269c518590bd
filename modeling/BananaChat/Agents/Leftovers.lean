import BananaChat.Agents.Sandboxes

namespace BananaChat.Agents

open Foundation

/-!
# What the runs of a task leave running

A sandbox holds processes.
-/

inductive Stage
  | launched
  | naming
  | starting
  | working
  /-- `runner.create` gave a sandbox that is not stored yet. -/
  | created (sandboxId : ℕ)
  /-- The lease was lost before the sandbox was stored. -/
  | dropping (sandboxId : ℕ)
  /-- `_sandbox_lost`. -/
  | losing
  /-- `_end`. -/
  | ending
  /-- `_stop_leftovers` of a run whose workspace is to be kept for some minutes. -/
  | stopping (keep : ℕ)
  | finishing (keep : ℕ)
  | removing
  | clearing
  | ended
deriving DecidableEq

structure TaskRun where
  token : ℕ
  stage : Stage
  sandboxId : Option ℕ
  sandboxDirty : Bool
  removeSandbox : Bool
  /-- Whether it has a client of the runner. -/
  runner : Bool

def TaskRun.launch (token : ℕ) : TaskRun := ⟨token, .launched, none, false, false, false⟩

/-- Whether `_end` stops what is left. -/
def TaskRun.mustStop (run : TaskRun) (keep : ℕ) : Bool :=
  (keep ≠ 0) && run.sandboxId.isSome && run.runner && run.sandboxDirty && !run.removeSandbox

/-- `remove_now` of `_end`. -/
def TaskRun.removeNow (run : TaskRun) (keep : ℕ) : Bool := (keep = 0) || run.removeSandbox

inductive RunMove
  | read
  | name
  | begin (available : Bool)
  | create (sandboxId : ℕ)
  | keep
  | drop (answer : Answer)
  /-- A command, with the processes that it leaves behind; it may take the sandbox with it. -/
  | exec (left : List ℕ) (removed : Bool)
  /-- A call, of a command or of another kind, that is told that the sandbox is gone. -/
  | miss (command : Bool)
  | lose
  | interrupt (answer : Answer)
  /-- The agent is finished, the run is to stop, or something went wrong. -/
  | stop
  | conclude (keep : ℕ)
  | stopLeftovers (answer : Answer)
  | finish (status : TaskStatus) (summary error : Text) (moment : ℚ)
  | remove (answer : Answer)
  | clear
deriving DecidableEq

inductive Recovery
  /-- The tasks whose sandboxes it has still to look at. -/
  | reading (tasks : List ℕ)
  | stopping (taskId sandboxId : ℕ) (tasks : List ℕ)
  | expiring (taskId sandboxId : ℕ) (tasks : List ℕ)
  | ended

def Recovery.concerns (taskId : ℕ) : Recovery -> Bool
  | .reading tasks => taskId ∈ tasks
  | .stopping task _ tasks | .expiring task _ tasks => task = taskId \/ taskId ∈ tasks
  | .ended => false

structure TaskState where
  store : TaskStore
  boxes : List ℕ
  /-- Every sandbox that was ever made. -/
  made : List ℕ
  processes : List (ℕ × ℕ)
  runs : List TaskRun
  recoveries : List Recovery
  issued : List ℕ
  clock : ℚ

def TaskState.start : TaskState := ⟨.empty, [], [], [], [], [], [], 0⟩

namespace TaskState

variable (state : TaskState)

def Holds (sandboxId : ℕ) : Prop := ∃ process, (sandboxId, process) ∈ state.processes

def due (row : TaskRow) : Bool := row.sandboxExpiresAt.any (· <= dbNow state.clock)

def write (store : TaskStore) : TaskState := { state with store := store }

section

variable (sandboxId : ℕ)

def kill : TaskState := { state with processes := state.processes.filter (·.1 ≠ sandboxId) }

def removeBox : TaskState :=
  { state with
    processes := state.processes.filter (·.1 ≠ sandboxId)
    boxes := state.boxes.filter (· ≠ sandboxId) }

def delete : Answer -> TaskState
  | .ok | .late | .removed => state.removeBox sandboxId
  | _ => state

def interrupt : Answer -> TaskState
  | .ok | .late => state.kill sandboxId
  | .removed => state.removeBox sandboxId
  | _ => state

end

/-- What `_interrupt` remembers of the answer. -/
def interrupted (run : TaskRun) : Answer -> TaskRun
  | .ok => { run with sandboxDirty := false }
  | .removed => { run with removeSandbox := true, sandboxDirty := false }
  | _ => { run with removeSandbox := true }

def runStep (taskId : ℕ) (run : TaskRun) : Stage -> RunMove -> Option (TaskState × TaskRun)
  | .launched, .read =>
    match state.store.get taskId with
    | none => some (state, { run with stage := .ended })
    | some row =>
      if row.ownerToken = some run.token then some (state, { run with stage := .naming, sandboxId := row.sandboxId })
      else some (state, { run with stage := .ended })
  | .naming, .name =>
    match run.sandboxId with
    | none => some (state, { run with stage := .starting })
    | some sandboxId =>
      some (state.write (state.store.setSandbox taskId (some run.token) (some sandboxId) none), { run with stage := .starting })
  | .starting, .begin available =>
    if state.store.owns taskId run.token then
      match state.store.setStatus taskId run.token .running (some []) true state.clock with
      | .error _ => none
      | .ok store => some (state.write store, { run with stage := if available then .working else .ending, runner := available })
    else some (state, { run with stage := .ended })
  | .working, .create sandboxId =>
    if run.sandboxId.isSome || (sandboxId ∈ state.made) then none
    else
      some ({ state with boxes := state.boxes ++ [sandboxId], made := state.made ++ [sandboxId] },
        { run with stage := .created sandboxId })
  | .created sandboxId, .keep =>
    if state.store.owns taskId run.token then
      some (state.write (state.store.setSandbox taskId (some run.token) (some sandboxId) none),
        { run with stage := .working, sandboxId := some sandboxId })
    else some (state, { run with stage := .dropping sandboxId })
  | .dropping sandboxId, .drop answer => some (state.delete sandboxId answer, { run with stage := .ended })
  | .working, .exec left removed =>
    match run.sandboxId with
    | none => none
    | some sandboxId =>
      if sandboxId ∈ state.boxes then
        if removed then some (state.removeBox sandboxId, { run with stage := .losing, sandboxDirty := true })
        else
          some ({ state with processes := state.processes ++ left.map (fun process => (sandboxId, process)) },
            { run with sandboxDirty := true })
      else none
  | .working, .miss command =>
    match run.sandboxId with
    | none => none
    | some sandboxId =>
      if sandboxId ∈ state.boxes then none
      else some (state, { run with stage := .losing, sandboxDirty := run.sandboxDirty || command })
  | .losing, .lose =>
    some (state.write (state.store.setSandbox taskId (some run.token) none none), { run with stage := .working, sandboxId := none })
  | .working, .interrupt answer =>
    match run.sandboxId with
    | none => none
    | some sandboxId => some (state.interrupt sandboxId answer, { interrupted run answer with stage := .ending })
  | .launched, .stop | .naming, .stop | .starting, .stop | .working, .stop | .created _, .stop | .losing, .stop | .stopping _, .stop |
      .finishing _, .stop => some (state, { run with stage := .ending })
  | .ending, .conclude keep => some (state, { run with stage := if run.mustStop keep then .stopping keep else .finishing keep })
  | .stopping keep, .stopLeftovers answer =>
    match run.sandboxId with
    | none => none
    | some sandboxId => some (state.interrupt sandboxId answer, { interrupted run answer with stage := .finishing keep })
  | .finishing keep, .finish status summary error moment =>
    if state.clock < moment then none
    else if state.store.owns taskId run.token then
      match state.store.finish taskId run.token status summary error
        (some (if run.removeNow keep then dbNow moment else dbNow moment + 60 * keep)) state.clock with
      | .error _ => none
      | .ok store =>
        some (state.write store,
          { run with stage := if run.removeNow keep && run.sandboxId.isSome && run.runner then .removing else .ended })
    else some (state, { run with stage := .ended })
  | .removing, .remove answer =>
    match run.sandboxId with
    | none => none
    | some sandboxId => some (state.delete sandboxId answer, { run with stage := if answer = .ok then .clearing else .ended })
  | .clearing, .clear =>
    match run.sandboxId with
    | none => none
    | some sandboxId => some (state.write (state.store.clearSandbox taskId sandboxId), { run with stage := .ended })
  | _, _ => none

/-- A step of `_stop_leftovers` of recovery, by the answer of the runner where it asks it. -/
def recoveryStep (answer : Answer) : Recovery -> TaskState × Recovery
  | .reading [] | .ended => (state, .ended)
  | .reading (taskId :: tasks) =>
    (state, ((state.store.get taskId).bind TaskRow.sandboxId).elim (.reading tasks) (.stopping taskId · tasks))
  | .stopping taskId sandboxId tasks =>
    (state.interrupt sandboxId answer, if answer = .ok then .reading tasks else .expiring taskId sandboxId tasks)
  | .expiring taskId sandboxId tasks =>
    (state.write (state.store.expireSandboxNow taskId sandboxId state.clock), .reading tasks)

end TaskState

inductive TaskAction
  | create (task : NewTask) (token : ℕ) (maxUser : Option ℕ) (maxSite : ℕ)
  /-- A follow-up or `_after_run` takes the task over. -/
  | resume (token : ℕ) (maxUser : Option ℕ) (maxSite : ℕ) (modelId : Option ℕ) (modelName : Option Text)
  | renew (token : ℕ)
  | run (index : ℕ) (move : RunMove)
  | recover (listed : List ℕ) (error : Text) (status : TaskStatus) (keepUntil : ℤ)
  | recovery (index : ℕ) (answer : Answer)
  /-- The runner is not configured or not available, or the process dies. -/
  | giveUp (index : ℕ)
  /-- A cleaner, or the runner itself, removes a sandbox. -/
  | vanish (sandboxId : ℕ)
  | clearSandbox (sandboxId : ℕ)
  | forgetSandbox (sandboxId : ℕ)
  | takeKeptSandbox
  | giveBackKeptSandbox (sandboxId : ℕ)
  | wait (clock : ℚ)

namespace TaskState

variable (taskId : ℕ) (state : TaskState)

def next : TaskAction -> TaskState
  | .create task token maxUser maxSite =>
    match state.store.create task token maxUser maxSite state.clock with
    | .error _ => state
    | .ok store => { state with store := store, runs := state.runs ++ [.launch token], issued := state.issued ++ [token] }
  | .resume token maxUser maxSite modelId modelName =>
    match state.store.resume taskId token maxUser maxSite modelId modelName state.clock with
    | .ok (some store) => { state with store := store, runs := state.runs ++ [.launch token], issued := state.issued ++ [token] }
    | _ => state
  | .renew token => state.write (state.store.renewLease taskId token state.clock)
  | .run index move =>
    match state.runs[index]? with
    | none => state
    | some run =>
      match state.runStep taskId run run.stage move with
      | none => state
      | some (after, run) => { after with runs := state.runs.set index run }
  | .recover listed error status keepUntil =>
    { state with
      store := state.store.recoverStale listed error status keepUntil state.clock
      recoveries := state.recoveries ++ [.reading listed] }
  | .recovery index answer =>
    match state.recoveries[index]? with
    | none => state
    | some recovery =>
      let (after, recovery) := state.recoveryStep answer recovery
      { after with recoveries := state.recoveries.set index recovery }
  | .giveUp index => { state with recoveries := state.recoveries.set index .ended }
  | .vanish sandboxId => state.removeBox sandboxId
  | .clearSandbox sandboxId => state.write (state.store.clearSandbox taskId sandboxId)
  | .forgetSandbox sandboxId => state.write (state.store.forgetSandbox sandboxId)
  | .takeKeptSandbox => state.write state.store.takeKeptSandbox.1
  | .giveBackKeptSandbox sandboxId => state.write (state.store.giveBackKeptSandbox taskId sandboxId state.clock)
  | .wait clock => { state with clock := clock }

def Enabled : TaskAction -> Prop
  | .create task token _ _ => task.id = taskId /\ token ∉ state.issued
  | .resume token _ _ _ _ => token ∉ state.issued
  | .renew token => token ∈ state.issued
  | .recover listed _ status _ => state.store.Listed listed state.clock /\ status.isTerminal
  | .wait clock => state.clock <= clock
  | _ => True

def Emptied : Prop :=
  ∀ row ∈ state.store.tasks, row.id = taskId -> ∀ own, row.sandboxId = some own -> ¬ state.Holds own

/-- A task is not taken over, and recovery of it is not given up, while processes are left in its sandbox; and only the run
that has the lease leaves some. -/
def Cautious : TaskAction -> Prop
  | .resume _ _ _ _ _ => state.Emptied taskId
  | .run index (.exec (_ :: _) false) => ∀ run, state.runs[index]? = some run -> state.store.owns taskId run.token
  | .giveUp index => ∀ recovery, state.recoveries[index]? = some recovery -> recovery.concerns taskId -> state.Emptied taskId
  | _ => True

def NothingLeft : Prop :=
  ∀ row ∈ state.store.tasks, row.id = taskId -> row.ownerToken = none ->
    (∀ recovery ∈ state.recoveries, recovery.concerns taskId = false) ->
      ∀ own, row.sandboxId = some own -> state.due row = false -> ¬ state.Holds own

end TaskState

def taskMachine (taskId : ℕ) : Machine TaskState TaskAction where
  initial := fun state => state = .start
  enabled := TaskState.Enabled taskId
  next := TaskState.next taskId

def cautiousMachine (taskId : ℕ) : Machine TaskState TaskAction where
  initial := fun state => state = .start
  enabled := fun state action => state.Enabled taskId action /\ state.Cautious taskId action
  next := TaskState.next taskId

end BananaChat.Agents
