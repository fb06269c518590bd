import BananaChat.Agents.Leases
import BananaChat.SignIn.Totp

namespace BananaChat.Agents

open Foundation

/-!
# Follow-ups

A follow-up is queued where its task is active.
-/

def maxFollowUpChars : ℕ := 10000

def maxPendingFollowUps : ℕ := 5

structure FollowUpCall where
  userId : ℕ
  taskId : ℕ
  content : Text
deriving DecidableEq

/-- `AgentError`, by what refuses. -/
inductive AgentError
  /-- `agents.error_empty`. -/
  | empty
  /-- `agents.error_too_long`. -/
  | tooLong
  /-- `check_access`. -/
  | access
  /-- `agents.error_no_access` with `not_found`. -/
  | notFound
  /-- `agents.error_too_many_messages`. -/
  | tooManyMessages
  /-- `choose_model`. -/
  | model
  /-- `_check_start`. -/
  | start
  /-- `agents.error_swarm_disabled`. -/
  | swarmDisabled
  /-- `agents.error_busy_user`. -/
  | busyUser
  /-- `agents.error_busy_site`. -/
  | busySite
  /-- Anything else that leaves the transaction. -/
  | other

/-- What `follow_up` makes of the exceptions of the tables. -/
def AgentError.ofTask : TaskError -> AgentError
  | .busyMessages => .tooManyMessages
  | .busyUser => .busyUser
  | .busySite => .busySite
  | _ => .other

/-- The text that `follow_up` goes on with; `none` stands for what is no text. -/
def followUpContent (content : Option Text) : Except AgentError Text :=
  let content := SignIn.strip (content.getD [])
  if content = [] then .error .empty
  else if maxFollowUpChars < content.length then .error .tooLong
  else .ok content

/-- What accounts, settings, the catalogue and the rates say within a transaction. -/
structure StartChecks where
  /-- `check_access` passes. -/
  access : Bool
  /-- A model is found, and for `_after_run` the account is not blocked. -/
  model : Bool
  /-- `_check_start` passes. -/
  start : Bool
  swarmsEnabled : Bool
  maxUser : Option ℕ
  maxSite : ℕ
  modelId : Option ℕ
  modelName : Option Text

/-- `is_active`. -/
def TaskRow.isRunning (now : ℚ) (row : TaskRow) : Bool := row.status.isActive && row.ownerToken.isSome && !row.isStale now

namespace TaskStore

variable (store : TaskStore)

def followUpState (userId taskId : ℕ) (access : Bool) : Except AgentError TaskRow :=
  if access then
    match store.get taskId with
    | none => .error .notFound
    | some row => if row.userId = userId then .ok row else .error .notFound
  else .error .access

def queueFollowUp (call : FollowUpCall) (now : ℚ) : Except AgentError TaskStore :=
  match store.addMessage call.taskId call.userId call.content (some maxPendingFollowUps) now with
  | .error error => .error (.ofTask error)
  | .ok store => .ok store

/-- The first transaction of `follow_up`: the message was queued, or the call goes on. -/
def followUpFirst (call : FollowUpCall) (access : Bool) (now : ℚ) : Except AgentError (Option TaskStore) :=
  match store.followUpState call.userId call.taskId access with
  | .error error => .error error
  | .ok task =>
    if task.isRunning now then
      match store.queueFollowUp call now with
      | .error error => .error error
      | .ok store => .ok (some store)
    else if maxPendingFollowUps <= (store.pending call.taskId).length then .error .tooManyMessages
    else .ok none

/-- The second transaction of `follow_up`, with whether the call has taken the task over; `is_active` reads a clock of
its own. -/
def followUpSecond (call : FollowUpCall) (token : ℕ) (checks : StartChecks) (checked now : ℚ) :
  Except AgentError (TaskStore × Bool) :=
  match store.followUpState call.userId call.taskId checks.access with
  | .error error => .error error
  | .ok task =>
    if task.isRunning checked then
      match store.queueFollowUp call now with
      | .error error => .error error
      | .ok queued => .ok (queued, false)
    else
      match store.queueFollowUp call now with
      | .error error => .error error
      | .ok queued =>
        if !checks.model then .error .model
        else if !checks.start then .error .start
        else if task.swarm && !checks.swarmsEnabled then .error .swarmDisabled
        else
          match queued.resume call.taskId token checks.maxUser checks.maxSite checks.modelId checks.modelName now with
          | .error error => .error (.ofTask error)
          | .ok none => .ok (queued, false)
          | .ok (some resumed) => .ok (resumed, true)

/-- The transaction of `_after_run`, for the run's owner; none where it goes no further, or is rolled back. -/
def afterRun (userId taskId token : ℕ) (checks : StartChecks) (checked now : ℚ) : Option TaskStore :=
  match store.followUpState userId taskId checks.access with
  | .error _ => none
  | .ok task =>
    if task.status ≠ .finished \/ task.isRunning checked \/ store.pending taskId = [] then none
    else if task.swarm && !checks.swarmsEnabled then none
    else if !checks.model then none
    else
      match store.resume taskId token checks.maxUser checks.maxSite none none now with
      | .error _ => none
      | .ok none => none
      | .ok (some resumed) => if checks.start then some resumed else none

end TaskStore

structure FollowUpState where
  store : TaskStore
  issued : List (ℕ × ℕ)
  /-- Calls between their two transactions. -/
  waiting : List FollowUpCall
  /-- Runs whose outcome is `finished` and that have not looked for messages yet. -/
  outcomes : List (ℕ × ℕ)

def FollowUpState.start : FollowUpState := ⟨.empty, [], [], []⟩

inductive FollowUpAction
  | create (task : NewTask) (token : ℕ) (maxUser : Option ℕ) (maxSite : ℕ) (now : ℚ)
  | followUp (userId taskId : ℕ) (content : Option Text) (access : Bool) (now : ℚ)
  | takeOver (call : FollowUpCall) (token : ℕ) (checks : StartChecks) (checked now : ℚ)
  | afterRun (taskId ended token : ℕ) (userId : ℕ) (checks : StartChecks) (checked now : ℚ)
  | recover (listed : List ℕ) (error : Text) (status : TaskStatus) (keepUntil : ℤ) (now : ℚ)
  | write (taskId token : ℕ) (write : RunWrite)

inductive FollowUpEvent
  | created (taskId : ℕ) (prompt : Text)
  /-- A follow-up was accepted, under the id of its message. -/
  | accepted (taskId message : ℕ) (content : Text)
  /-- The run with this token consumed a message. -/
  | consumed (taskId token message : ℕ) (content : Text)
  | finished (taskId token : ℕ)
  | recovered (taskId token : ℕ)

namespace FollowUpState

variable (state : FollowUpState)

def ends (taskId token : ℕ) : RunWrite -> Bool
  | .finish status _ _ _ _ => status.isTerminal && state.store.owns taskId token
  | _ => false

/-- Whether a write makes the run's outcome `finished`. -/
def finishes (taskId token : ℕ) : RunWrite -> Bool
  | .finish status _ _ _ _ => (status = .finished) && state.store.owns taskId token
  | _ => false

def next : FollowUpAction -> FollowUpState
  | .create task token maxUser maxSite now =>
    match state.store.create task token maxUser maxSite now with
    | .error _ => state
    | .ok store => { state with store := store, issued := state.issued ++ [(task.id, token)] }
  | .followUp userId taskId content access now =>
    match followUpContent content with
    | .error _ => state
    | .ok content =>
      match state.store.followUpFirst ⟨userId, taskId, content⟩ access now with
      | .error _ => state
      | .ok (some store) => { state with store := store }
      | .ok none => { state with waiting := state.waiting ++ [⟨userId, taskId, content⟩] }
  | .takeOver call token checks checked now =>
    match state.store.followUpSecond call token checks checked now with
    | .error _ => { state with waiting := state.waiting.erase call }
    | .ok (store, taken) =>
      { state with
        store := store
        waiting := state.waiting.erase call
        issued := if taken then state.issued ++ [(call.taskId, token)] else state.issued }
  | .afterRun taskId ended token userId checks checked now =>
    match state.store.afterRun userId taskId token checks checked now with
    | none => { state with outcomes := state.outcomes.erase (taskId, ended) }
    | some store =>
      { state with
        store := store
        outcomes := state.outcomes.erase (taskId, ended)
        issued := state.issued ++ [(taskId, token)] }
  | .recover listed error status keepUntil now => { state with store := state.store.recoverStale listed error status keepUntil now }
  | .write taskId token write =>
    { state with
      store := write.apply state.store taskId token
      outcomes := if state.finishes taskId token write then state.outcomes ++ [(taskId, token)] else state.outcomes }

/-- A token that no process was given (`uuid4`). -/
def Unused (token : ℕ) : Prop := ∀ lease ∈ state.issued, lease.2 ≠ token

def Written : RunWrite -> Prop
  | .addStep kind _ detail _ => kind = .user -> detail.agent ≠ 0
  | _ => True

def Enabled : FollowUpAction -> Prop
  | .create _ token _ _ _ => state.Unused token
  | .followUp _ _ _ _ _ => True
  | .takeOver call token _ _ _ => call ∈ state.waiting /\ state.Unused token
  | .afterRun taskId ended token _ _ _ _ => (taskId, ended) ∈ state.outcomes /\ state.Unused token
  | .recover listed _ status _ now => state.store.Listed listed now /\ status.isTerminal
  | .write taskId token write => (taskId, token) ∈ state.issued /\ Written write

def accepts (call : FollowUpCall) : List FollowUpEvent := [.accepted call.taskId (state.store.lastMessage + 1) call.content]

def report : FollowUpAction -> List FollowUpEvent
  | .create task token maxUser maxSite now =>
    match state.store.create task token maxUser maxSite now with
    | .error _ => []
    | .ok _ => [.created task.id (clip task.prompt maxText)]
  | .followUp userId taskId content access now =>
    match followUpContent content with
    | .error _ => []
    | .ok content =>
      match state.store.followUpFirst ⟨userId, taskId, content⟩ access now with
      | .ok (some _) => state.accepts ⟨userId, taskId, content⟩
      | _ => []
  | .takeOver call token checks checked now =>
    match state.store.followUpSecond call token checks checked now with
    | .ok _ => state.accepts call
    | .error _ => []
  | .afterRun _ _ _ _ _ _ _ => []
  | .recover listed _ _ _ _ =>
    listed.flatMap (fun taskId => ((state.store.get taskId).bind TaskRow.ownerToken).toList.map (.recovered taskId))
  | .write taskId token (.takeMessages limit _) =>
    (state.store.taken taskId token limit).map (fun row => .consumed taskId token row.id row.content)
  | .write taskId token write => if state.ends taskId token write then [.finished taskId token] else []

end FollowUpState

def followUpMachine : Machine FollowUpState FollowUpAction where
  initial := fun state => state = .start
  enabled := FollowUpState.Enabled
  next := FollowUpState.next

end BananaChat.Agents
