import Mathlib.Data.List.MinMax
import BananaChat.Agents.Leases

namespace BananaChat.Agents

open Foundation

/-!
# Workspaces of agent tasks

A task names the sandbox that holds its files.
-/

namespace TaskStore

variable (store : TaskStore)

def clearSandbox (taskId sandboxId : ℕ) : TaskStore :=
  store.updateTasks (fun row => row.id = taskId /\ row.sandboxId = some sandboxId)
    (fun row => { row with sandboxId := none, sandboxExpiresAt := none })

/-- What the query of `expired_sandboxes` may list. -/
def ExpiredSandboxes (listed : List (ℕ × ℕ)) (now : ℚ) : Prop :=
  listed.length <= 50 /\ ∀ item ∈ listed, ∃ row ∈ store.tasks, row.id = item.1 /\
    row.sandboxId = some item.2 /\ row.ownerToken = none /\ (row.sandboxExpiresAt.any (· <= dbNow now))

def keptSandbox (row : TaskRow) : Bool := row.sandboxId.isSome && row.ownerToken.isNone && row.sandboxExpiresAt.isSome

/-- The row that `take_kept_sandbox` finds: the one that expires first. -/
def firstKept : Option TaskRow :=
  (store.tasks.filter keptSandbox).argmin (fun row => toLex (row.sandboxExpiresAt.getD 0, row.id))

/-- `take_kept_sandbox`, with the task and the sandbox that it took. -/
def takeKeptSandbox : TaskStore × Option (ℕ × ℕ) :=
  match store.firstKept with
  | none => (store, none)
  | some row =>
    (store.updateTasks (fun other => other.id = row.id /\ other.sandboxId = row.sandboxId /\ other.ownerToken = none)
      (fun other => { other with sandboxId := none, sandboxExpiresAt := none }),
      row.sandboxId.map fun sandboxId => (row.id, sandboxId))

def expireSandboxNow (taskId sandboxId : ℕ) (now : ℚ) : TaskStore :=
  store.updateTasks (fun row => row.id = taskId /\ row.sandboxId = some sandboxId /\ row.ownerToken = none)
    (fun row => { row with sandboxExpiresAt := some (dbNow now) })

def forgetSandbox (sandboxId : ℕ) : TaskStore :=
  store.updateTasks (fun row => row.sandboxId = some sandboxId /\ row.ownerToken = none)
    (fun row => { row with sandboxId := none, sandboxExpiresAt := none })

def giveBackKeptSandbox (taskId sandboxId : ℕ) (now : ℚ) : TaskStore :=
  store.updateTasks (fun row => row.id = taskId /\ row.sandboxId = none /\ row.ownerToken = none)
    (fun row => { row with sandboxId := some sandboxId, sandboxExpiresAt := some (dbNow now) })

def knownSandboxes : List ℕ := store.tasks.filterMap TaskRow.sandboxId

/-- `_OLD`. -/
def isOld (cutoff : ℤ) (row : TaskRow) : Bool := row.ownerToken.isNone && (row.finishedAt.getD row.updatedAt < cutoff)

/-- What the query of `old_tasks` may list. -/
def OldTasks (listed : List (ℕ × Option ℕ)) (cutoff : ℤ) : Prop :=
  listed.length <= 200 /\ ∀ item ∈ listed, ∃ row ∈ store.tasks, row.id = item.1 /\
    row.sandboxId = item.2 /\ isOld cutoff row

/-- `delete_if_old`: what is stored for the task goes with it. -/
def deleteIfOld (taskId : ℕ) (cutoff : ℤ) : TaskStore × Bool :=
  if store.tasks.any (fun row => (row.id = taskId) && isOld cutoff row) then
    ({ store with
      tasks := Rows.deleteWhere (fun row => (row.id = taskId) && isOld cutoff row) store.tasks
      steps := Rows.deleteWhere (·.taskId = taskId) store.steps
      lanes := Rows.deleteWhere (·.taskId = taskId) store.lanes
      messages := Rows.deleteWhere (·.taskId = taskId) store.messages }, true)
  else (store, false)

end TaskStore

structure Box where
  id : ℕ
  session : ℕ
  created : ℚ
deriving DecidableEq

inductive Answer
  | ok
  /-- An interrupt that had to remove the sandbox. -/
  | removed
  /-- An error; nothing was done. -/
  | failed
  /-- An error, after the call was carried out. -/
  | late
  /-- The runner does not have the sandbox. -/
  | notFound
deriving DecidableEq

structure Yard where
  store : TaskStore
  boxes : List Box
  /-- Every sandbox that was ever made, with its session. -/
  made : List (ℕ × ℕ)
  /-- Every id that a task was given. -/
  used : List ℕ
  issued : List (ℕ × ℕ)
  clock : ℚ

def unknownSandboxGrace : ℚ := 600

namespace Yard

variable (yard : Yard)

def has (sandboxId : ℕ) : Bool := yard.boxes.any (·.id = sandboxId)

def without (sandboxId : ℕ) : Yard := { yard with boxes := yard.boxes.filter (·.id ≠ sandboxId) }

def delete (sandboxId : ℕ) : Answer -> Yard
  | .ok | .late | .removed => yard.without sandboxId
  | _ => yard

/-- `runner.create`. -/
def add (session sandboxId : ℕ) : Yard :=
  { yard with boxes := yard.boxes ++ [⟨sandboxId, session, yard.clock⟩], made := yard.made ++ [(sandboxId, session)] }

def sweepable (box : Box) : Bool := box.created <= yard.clock - unknownSandboxGrace

def unknown (listed : List Box) : List ℕ :=
  (listed.filter fun box => !(yard.store.knownSandboxes.contains box.id) && yard.sweepable box).map Box.id

end Yard

inductive RunPlace
  | launched
  | naming (sandboxId : Option ℕ)
  | starting (sandboxId : Option ℕ)
  | working (sandboxId : Option ℕ)
  /-- `runner.create` gave a sandbox that is not stored yet. -/
  | created (sandboxId : ℕ)
  /-- The lease was lost before the sandbox was stored. -/
  | dropping (sandboxId : ℕ)
  /-- `_sandbox_lost`. -/
  | losing (sandboxId : ℕ)
  /-- `_end`, before `finish`. -/
  | ending (sandboxId : Option ℕ) (removes : Bool)
  /-- `_end`, after `finish`. -/
  | removing (sandboxId : ℕ)
  | clearing (sandboxId : ℕ)
  /-- `_discard_deleted`. -/
  | discarding (sandboxId : ℕ)
  | closed
deriving DecidableEq

inductive Job
  | run (taskId token : ℕ) (place : RunPlace)
  /-- `reap_sandboxes` with the tasks and sandboxes that expired. -/
  | reaping (rows : List (ℕ × ℕ))
  | reaped (taskId sandboxId : ℕ) (rows : List (ℕ × ℕ))
  | listed (boxes : List Box)
  | sweeping (sandboxes : List ℕ)
  | swept (sandboxId : ℕ) (rest : List ℕ)
  /-- `_reclaim_kept_sandbox` with the task and the sandbox that it took. -/
  | reclaiming (taskId sandboxId : ℕ)
  | checking (taskId sandboxId : ℕ)
  | givingBack (taskId sandboxId : ℕ)
  /-- `purge_old_tasks`. -/
  | purging (cutoff : ℤ) (rows : List (ℕ × Option ℕ))
  | purged (cutoff : ℤ) (taskId sandboxId : ℕ) (rows : List (ℕ × Option ℕ))
  /-- `_stop_leftovers` of recovery. -/
  | leftovers (tasks : List ℕ)
  | stopping (taskId sandboxId : ℕ) (tasks : List ℕ)
  | expiring (taskId sandboxId : ℕ) (tasks : List ℕ)
  | closed
deriving DecidableEq

inductive RunStep
  | read
  | name
  | begin
  /-- `runner.create` with the sandbox it made, or none. -/
  | create (sandboxId : Option ℕ)
  | keep
  | drop (answer : Answer)
  /-- A command, which may take the sandbox with it. -/
  | exec (removed : Bool)
  /-- A call that is told that the sandbox is gone. -/
  | miss
  | lose
  /-- The interrupt of `_end` or of a command that is stopped. -/
  | interrupt (answer : Answer)
  /-- `_end` without an interrupt. -/
  | stop (removes : Bool)
  | finish (status : TaskStatus) (summary error : Text) (expiresAt : Option ℤ)
  | remove (answer : Answer)
  | clear
  /-- A write finds that the lease is lost. -/
  | lost
  | discard (answer : Answer)
deriving DecidableEq

namespace Yard

variable (yard : Yard)

def write (store : TaskStore) : Yard := { yard with store := store }

def runStep (taskId token : ℕ) : RunPlace -> RunStep -> Option (Yard × RunPlace)
  | .launched, .read =>
    match yard.store.get taskId with
    | none => some (yard, .closed)
    | some row => if row.ownerToken = some token then some (yard, .naming row.sandboxId) else some (yard, .closed)
  | .launched, .stop removes => some (yard, .ending none removes)
  | .naming none, .name => some (yard, .starting none)
  | .naming (some sandboxId), .name =>
    some (yard.write (yard.store.setSandbox taskId (some token) (some sandboxId) none), .starting (some sandboxId))
  | .starting sandboxId, .begin =>
    if yard.store.owns taskId token then
      match yard.store.setStatus taskId token .running (some []) true yard.clock with
      | .error _ => none
      | .ok store => some (yard.write store, .working sandboxId)
    else some (yard, .closed)
  | .working none, .create none => some (yard, .working none)
  | .working none, .create (some sandboxId) => some (yard.add taskId sandboxId, .created sandboxId)
  | .created sandboxId, .keep =>
    if yard.store.owns taskId token then
      some (yard.write (yard.store.setSandbox taskId (some token) (some sandboxId) none), .working (some sandboxId))
    else some (yard, .dropping sandboxId)
  | .dropping sandboxId, .drop answer => some (yard.delete sandboxId answer, .closed)
  | .working (some sandboxId), .exec removed =>
    some (if removed then yard.without sandboxId else yard, if removed then .losing sandboxId else .working (some sandboxId))
  | .working (some sandboxId), .miss => some (yard, .losing sandboxId)
  | .losing _, .lose => some (yard.write (yard.store.setSandbox taskId (some token) none none), .working none)
  | .working (some sandboxId), .interrupt answer =>
    some (if answer = .ok then yard else yard.delete sandboxId answer, .ending (some sandboxId) ((answer ≠ .ok)))
  | .working sandboxId, .stop removes => some (yard, .ending sandboxId removes)
  | .ending sandboxId removes, .finish status summary error expiresAt =>
    if yard.store.owns taskId token then
      match yard.store.finish taskId token status summary error expiresAt yard.clock with
      | .error _ => none
      | .ok store => some (yard.write store, if removes then (sandboxId.elim .closed .removing) else .closed)
    else some (yard, .closed)
  | .removing sandboxId, .remove answer => some (yard.delete sandboxId answer, if answer = .ok then .clearing sandboxId else .closed)
  | .clearing sandboxId, .clear => some (yard.write (yard.store.clearSandbox taskId sandboxId), .closed)
  | .working sandboxId, .lost | .ending sandboxId _, .lost =>
    if yard.store.owns taskId token then none
    else some (yard, if (yard.store.get taskId).isNone then sandboxId.elim .closed .discarding else .closed)
  | .discarding sandboxId, .discard answer => some (yard.delete sandboxId answer, .closed)
  | _, _ => none

def cleanStep (answer : Answer) : Job -> Option (Yard × Job)
  | .run _ _ _ | .closed => none
  | .reaping [] => some (yard, if answer = .ok then .listed yard.boxes else .closed)
  | .reaping ((taskId, sandboxId) :: rows) =>
    some (yard.delete sandboxId answer, if answer = .ok then .reaped taskId sandboxId rows else .reaping rows)
  | .reaped taskId sandboxId rows => some (yard.write (yard.store.clearSandbox taskId sandboxId), .reaping rows)
  | .listed boxes => some (yard, .sweeping (yard.unknown boxes))
  | .sweeping [] => some (yard, .closed)
  | .sweeping (sandboxId :: rest) =>
    some (yard.delete sandboxId answer, if answer = .ok then .swept sandboxId rest else .sweeping rest)
  | .swept sandboxId rest => some (yard.write (yard.store.forgetSandbox sandboxId), .sweeping rest)
  | .reclaiming taskId sandboxId =>
    some (yard.delete sandboxId answer, if answer = .ok \/ answer = .notFound then .closed else .checking taskId sandboxId)
  | .checking taskId sandboxId => some (yard, if answer = .notFound then .closed else .givingBack taskId sandboxId)
  | .givingBack taskId sandboxId => some (yard.write (yard.store.giveBackKeptSandbox taskId sandboxId yard.clock), .closed)
  | .purging _ [] => some (yard, .closed)
  | .purging cutoff ((taskId, sandboxId) :: rows) =>
    let (store, deleted) := yard.store.deleteIfOld taskId cutoff
    some (yard.write store, if deleted then sandboxId.elim (.purging cutoff rows) (.purged cutoff taskId · rows)
      else .purging cutoff rows)
  | .purged cutoff _ sandboxId rows => some (yard.delete sandboxId answer, .purging cutoff rows)
  | .leftovers [] => some (yard, .closed)
  | .leftovers (taskId :: tasks) =>
    some (yard, ((yard.store.get taskId).bind TaskRow.sandboxId).elim (.leftovers tasks)
      (.stopping taskId · tasks))
  | .stopping taskId sandboxId tasks =>
    some (if answer = .ok then yard else yard.delete sandboxId answer,
      if answer = .ok then .leftovers tasks else .expiring taskId sandboxId tasks)
  | .expiring taskId sandboxId tasks =>
    some (yard.write (yard.store.expireSandboxNow taskId sandboxId yard.clock), .leftovers tasks)

end Yard

structure YardState where
  yard : Yard
  jobs : List Job

def YardState.start : YardState := ⟨⟨.empty, [], [], [], [], 0⟩, []⟩

inductive YardAction
  | create (task : NewTask) (token : ℕ) (maxUser : Option ℕ) (maxSite : ℕ)
  /-- A follow-up or `_after_run` takes a task over. -/
  | resume (taskId token : ℕ) (maxUser : Option ℕ) (maxSite : ℕ) (modelId : Option ℕ) (modelName : Option Text)
  | recover (listed : List ℕ) (error : Text) (status : TaskStatus) (keepUntil : ℤ)
  | reap (listed : List (ℕ × ℕ))
  | reclaim
  | purge (listed : List (ℕ × Option ℕ)) (cutoff : ℤ)
  | renew (taskId token : ℕ)
  | run (job : ℕ) (step : RunStep)
  | clean (job : ℕ) (answer : Answer)
  | wait (clock : ℚ)

namespace YardState

variable (state : YardState)

def next : YardAction -> YardState
  | .create task token maxUser maxSite =>
    match state.yard.store.create task token maxUser maxSite state.yard.clock with
    | .error _ => state
    | .ok store =>
      ⟨{ state.yard with store := store, used := state.yard.used ++ [task.id], issued := state.yard.issued ++ [(task.id, token)] },
        state.jobs ++ [.run task.id token .launched]⟩
  | .resume taskId token maxUser maxSite modelId modelName =>
    match state.yard.store.resume taskId token maxUser maxSite modelId modelName state.yard.clock with
    | .ok (some store) =>
      ⟨{ state.yard with store := store, issued := state.yard.issued ++ [(taskId, token)] },
        state.jobs ++ [.run taskId token .launched]⟩
    | _ => state
  | .recover listed error status keepUntil =>
    ⟨state.yard.write (state.yard.store.recoverStale listed error status keepUntil state.yard.clock), state.jobs ++ [.leftovers listed]⟩
  | .reap listed => { state with jobs := state.jobs ++ [.reaping listed] }
  | .reclaim =>
    match state.yard.store.takeKeptSandbox with
    | (store, none) => { state with yard := state.yard.write store }
    | (store, some (taskId, sandboxId)) => ⟨state.yard.write store, state.jobs ++ [.reclaiming taskId sandboxId]⟩
  | .purge listed cutoff => { state with jobs := state.jobs ++ [.purging cutoff listed] }
  | .renew taskId token => { state with yard := state.yard.write (state.yard.store.renewLease taskId token state.yard.clock) }
  | .run index step =>
    match state.jobs[index]? with
    | some (.run taskId token place) =>
      match state.yard.runStep taskId token place step with
      | none => state
      | some (yard, place) => ⟨yard, state.jobs.set index (.run taskId token place)⟩
    | _ => state
  | .clean index answer =>
    match state.jobs[index]? with
    | none => state
    | some job =>
      match state.yard.cleanStep answer job with
      | none => state
      | some (yard, job) => ⟨yard, state.jobs.set index job⟩
  | .wait clock => { state with yard := { state.yard with clock := clock } }

def Honest (index : ℕ) : RunStep -> Prop
  | .create (some sandboxId) => sandboxId ∉ state.yard.made.map Prod.fst
  | .miss => ∀ taskId token sandboxId, state.jobs[index]? = some (.run taskId token (.working (some sandboxId))) ->
      state.yard.has sandboxId = false
  | _ => True

def Enabled : YardAction -> Prop
  | .create task token _ _ => task.id ∉ state.yard.used /\ token ∉ state.yard.issued.map Prod.snd
  | .resume _ token _ _ _ _ => token ∉ state.yard.issued.map Prod.snd
  | .recover listed _ status _ => state.yard.store.Listed listed state.yard.clock /\ status.isTerminal
  | .reap listed => state.yard.store.ExpiredSandboxes listed state.yard.clock
  | .reclaim => True
  | .purge listed cutoff => state.yard.store.OldTasks listed cutoff /\ cutoff <= dbNow state.yard.clock - 86400
  | .renew taskId token => (taskId, token) ∈ state.yard.issued
  | .run index step => state.Honest index step
  | .clean index answer => ∀ taskId sandboxId, (state.jobs[index]? = some (.reclaiming taskId sandboxId) \/
      state.jobs[index]? = some (.checking taskId sandboxId)) -> answer = .notFound -> state.yard.has sandboxId = false
  | .wait clock => state.yard.clock <= clock

end YardState

end BananaChat.Agents
