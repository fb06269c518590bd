import BananaChat.Agents.Tasks
import BananaChat.Foundation.Machine

namespace BananaChat.Agents

open Foundation

/-!
# The leases of agent tasks

Any number of processes work on tasks.
-/

inductive RunWrite
  | setStatus (status : TaskStatus) (notice : Option Text) (started : Bool) (now : ℚ)
  | setSandbox (sandboxId : Option ℕ) (expiresAt : Option ℤ)
  | addStep (kind : StepKind) (content : Text) (detail : StepDetail) (now : ℚ)
  | addUsage (steps toolCalls : ℕ) (tokensIn tokensOut : ℤ) (now : ℚ)
  | renew (now : ℚ)
  | takeMessages (limit : ℕ) (now : ℚ)
  | finish (status : TaskStatus) (summary error : Text) (sandboxExpiresAt : Option ℤ) (now : ℚ)
  | addLane (agent : ℕ) (title instructions : Text) (now : ℚ)
  | updateLane (agent : ℕ) (status : Option LaneStatus) (stepsUsed : Option ℕ) (summary : Option Text) (now : ℚ)

def afterCall (store : TaskStore) : Except TaskError TaskStore -> TaskStore
  | .error _ => store
  | .ok next => next

def RunWrite.apply (store : TaskStore) (taskId token : ℕ) : RunWrite -> TaskStore
  | .setStatus status notice started now => afterCall store (store.setStatus taskId token status notice started now)
  | .setSandbox sandboxId expiresAt => store.setSandbox taskId (some token) sandboxId expiresAt
  | .addStep kind content detail now => (store.addStep taskId token kind content detail now).getD store
  | .addUsage steps toolCalls tokensIn tokensOut now => store.addUsage taskId token steps toolCalls tokensIn tokensOut now
  | .renew now => store.renewLease taskId token now
  | .takeMessages limit now => store.takeMessages taskId token limit now
  | .finish status summary error expiresAt now => afterCall store (store.finish taskId token status summary error expiresAt now)
  | .addLane agent title instructions now => afterCall store (store.addLane taskId agent title instructions now)
  | .updateLane agent status stepsUsed summary now => store.updateLane taskId agent status stepsUsed summary now

structure LeaseState where
  store : TaskStore
  issued : List (ℕ × ℕ)

def LeaseState.start : LeaseState := ⟨.empty, []⟩

inductive LeaseAction
  | create (task : NewTask) (token : ℕ) (maxUser : Option ℕ) (maxSite : ℕ) (now : ℚ)
  | resume (taskId token : ℕ) (maxUser : Option ℕ) (maxSite : ℕ) (modelId : Option ℕ) (modelName : Option Text) (now : ℚ)
  | recover (listed : List ℕ) (error : Text) (status : TaskStatus) (keepUntil : ℤ) (now : ℚ)
  | addMessage (taskId userId : ℕ) (content : Text) (maxPending : Option ℕ) (now : ℚ)
  /-- The process that was given this token writes. -/
  | write (taskId token : ℕ) (write : RunWrite)

namespace LeaseState

variable (state : LeaseState)

def next : LeaseAction -> LeaseState
  | .create task token maxUser maxSite now =>
    match state.store.create task token maxUser maxSite now with
    | .error _ => state
    | .ok store => ⟨store, state.issued ++ [(task.id, token)]⟩
  | .resume taskId token maxUser maxSite modelId modelName now =>
    match state.store.resume taskId token maxUser maxSite modelId modelName now with
    | .error _ => state
    | .ok none => state
    | .ok (some store) => ⟨store, state.issued ++ [(taskId, token)]⟩
  | .recover listed error status keepUntil now => { state with store := state.store.recoverStale listed error status keepUntil now }
  | .addMessage taskId userId content maxPending now =>
    { state with store := afterCall state.store (state.store.addMessage taskId userId content maxPending now) }
  | .write taskId token write => { state with store := write.apply state.store taskId token }

/-- A token that no process was given (`uuid4`). -/
def Unused (token : ℕ) : Prop := ∀ lease ∈ state.issued, lease.2 ≠ token

def Enabled : LeaseAction -> Prop
  | .create _ token _ _ _ => state.Unused token
  | .resume _ token _ _ _ _ _ => state.Unused token
  | .recover listed _ status _ now => state.store.Listed listed now /\ status.isTerminal
  | .addMessage _ _ _ _ _ => True
  | .write taskId token _ => (taskId, token) ∈ state.issued

def hasOpenLane (taskId : ℕ) : Bool := state.store.lanes.any (fun lane => (lane.taskId = taskId) && lane.status.isOpen)

def Orderly : LeaseAction -> Prop
  | .write taskId token (.addLane _ _ _ _) => state.store.owns taskId token = true
  | .write taskId token (.updateLane _ _ _ _ _) => state.store.owns taskId token = true
  | .write taskId token (.finish _ _ _ _ _) => state.store.owns taskId token = true -> state.hasOpenLane taskId = false
  | _ => True

def Lost (taskId token : ℕ) : Prop := (taskId, token) ∈ state.issued /\ state.store.owns taskId token = false

end LeaseState

def leaseMachine : Machine LeaseState LeaseAction where
  initial := fun state => state = .start
  enabled := LeaseState.Enabled
  next := LeaseState.next

def orderlyMachine : Machine LeaseState LeaseAction where
  initial := fun state => state = .start
  enabled := fun state action => state.Enabled action /\ state.Orderly action
  next := LeaseState.next

structure TaskView where
  rows : List TaskRow
  steps : List StepRow
  lanes : List LaneRow
  messages : List MessageRow
deriving DecidableEq

def TaskStore.view (store : TaskStore) (taskId : ℕ) : TaskView where
  rows := store.tasks.filter (·.id = taskId)
  steps := store.steps.filter (·.taskId = taskId)
  lanes := store.lanes.filter (·.taskId = taskId)
  messages := store.messages.filter (·.taskId = taskId)

end BananaChat.Agents
