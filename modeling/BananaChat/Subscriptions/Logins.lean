import Mathlib.Algebra.Order.Ring.Rat
import BananaChat.Foundation.Machine
import BananaChat.Foundation.Rows

namespace BananaChat.Subscriptions.Logins

open Foundation Rows

/-!
# Sign-ins of a subscription account

An administrator signs a pooled account in by the provider's CLI.
-/

inductive Provider
  | claude
  | codex
deriving DecidableEq

/-- `ACTIVE` and `FINAL`. -/
inductive LoginState
  | starting
  | waiting
  | verifying
  | done
  | failed
  | cancelled
deriving DecidableEq

namespace LoginState

def active : LoginState -> Bool
  | .starting => true
  | .waiting => true
  | .verifying => true
  | _ => false

def final (state : LoginState) : Bool := !state.active

end LoginState

structure Process where
  host : ℕ
  pid : ℕ
deriving DecidableEq

structure Session where
  id : ℕ
  state : LoginState
  url : Option String
  userCode : Option String
  needsCode : Bool
  message : String
  plan : Option String
  startedAt : ℚ
  updatedAt : ℚ
  expiresAt : ℚ
  process : Process
  startedBy : String

/-- The three stored values: the session, the code submitted to a session, the
session to cancel. -/
structure Stored where
  session : Option Session
  code : Option (ℕ × String)
  cancel : Option ℕ

def sessionSeconds : ℚ := 15 * 60

/-- The changes an update makes; what is none stays. -/
structure Changes where
  state : LoginState
  message : String
  needsCode : Option Bool
  url : Option String
  userCode : Option String
  plan : Option String

def Changes.ending (state : LoginState) (message : String) : Changes := ⟨state, message, some false, none, none, none⟩

def Session.change (session : Session) (changes : Changes) (now : ℚ) : Session :=
  { session with
    state := changes.state
    message := changes.message
    needsCode := changes.needsCode.getD session.needsCode
    url := changes.url.or session.url
    userCode := changes.userCode.or session.userCode
    plan := changes.plan.or session.plan
    updatedAt := now }

/-- `_update`: the stored values, and the changed session. -/
def update (sessionId : ℕ) (changes : Changes) (now : ℚ) (stored : Stored) : Stored × Option Session :=
  match stored.session with
  | none => (stored, none)
  | some session =>
    if session.id = sessionId then
      ({ stored with session := some (session.change changes now) }, some (session.change changes now))
    else (stored, none)

/-- `_alive`, for a reader on `host`.  `taken` tells whether another program has
the process id now. -/
def alive (processes : List Process) (host : ℕ) (taken : Bool) (session : Session) : Bool :=
  (session.process.host ≠ host) || (session.process ∈ processes) || taken

/-- What `status` is read for. -/
inductive Purpose
  | show
  | submit (code : String)
  | cancel

/-- The next step of a call: `status` reads, and may have to write that the
session failed; `submit_code` stores the code; `cancel` stores the cancellation,
reads the session again and may have to write that it was cancelled. -/
inductive Stage
  | reading (purpose : Purpose)
  | ending (session : Session) (message : String) (purpose : Purpose)
  | submitting (session : ℕ) (code : String)
  | cancelling (session : ℕ)
  | looking (session : ℕ)
  | confirming (session : ℕ)

structure Call where
  id : ℕ
  process : Process
  stage : Stage

def expiredMessage : String := "The sign-in expired. Start it again."

def interruptedMessage : String := "The sign-in was interrupted (the server process restarted). Start it again."

/-- What follows once `status` returned a session; nothing where the call ends. -/
def resolve (session : Session) : Purpose -> Option Stage
  | .show => none
  | .submit code =>
    if session.state = .waiting /\ session.needsCode then some (.submitting session.id code) else none
  | .cancel => if session.state.active then some (.cancelling session.id) else none

section

variable (processes : List Process) (host : ℕ) (taken : Bool) (now : ℚ)

/-- The read of `status`. -/
def read (purpose : Purpose) (stored : Stored) :
  Option Stage :=
  match stored.session with
  | none => none
  | some session =>
    if session.state.active then
      if session.expiresAt + 30 < now then some (.ending session expiredMessage purpose)
      else if alive processes host taken session = false then some (.ending session interruptedMessage purpose)
      else resolve session purpose
    else resolve session purpose

def Stage.step (stored : Stored) :
    Stage -> Option Stage × Stored
  | .reading purpose => (read processes host taken now purpose stored, stored)
  | .ending session message purpose =>
    let updated := update session.id (.ending .failed message) now stored
    (resolve (updated.2.getD session) purpose, updated.1)
  | .submitting session code => (none, { stored with code := some (session, code) })
  | .cancelling session => (some (.looking session), { stored with cancel := some session })
  | .looking session =>
    match stored.session with
    | none => (some (.reading .show), stored)
    | some found =>
      if alive processes host taken found then (some (.reading .show), stored) else (some (.confirming session), stored)
  | .confirming session => (some (.reading .show), (update session (.ending .cancelled "Cancelled.") now stored).1)

end

/-- `CODE_RE`. -/
def isCode (code : String) : Bool :=
  (8 <= code.length /\ code.length <= 600) && code.toList.all fun char =>
      ('a' <= char && char <= 'z') || ('A' <= char && char <= 'Z') || ('0' <= char && char <= '9') ||
        (char ∈ ['.', '_', '~', '#', '=', '+', '/', '-'])

def Purpose.accepted : Purpose -> Bool
  | .submit code => isCode code
  | _ => true

inductive Ending
  | failed (message : String)
  | cancelled
deriving DecidableEq

/-- Where `_run` stands.  `linked` is about to show the link, `typing` holds a
code it took, `typed` is about to tell that it typed it, `stopped` has stopped
the CLI, `signedIn` is about to tell its success, `ended` its failure; then the
code and the cancellation are cleared. -/
inductive Phase
  | launching
  | linked (url : String) (userCode : Option String)
  | waiting
  | typing (code : String)
  | typed
  | finishing
  | stopped
  | checking
  | signedIn (plan : Option String)
  | ended (ending : Ending)
  | clearingCode
  | clearingCancel
deriving DecidableEq

def Phase.working : Phase -> Bool
  | .clearingCode => false
  | .clearingCancel => false
  | _ => true

structure LoginThread where
  session : ℕ
  process : Process
  phase : Phase

inductive ThreadStep
  | checkCancel
  | findLink (url : String) (userCode : Option String)
  | tellWaiting
  | takeCode
  | typeCode
  | tellTyped
  | finish
  | tellChecking
  | verified (plan : Option String)
  | tellDone
  | failure (message : String)
  | tellEnd (committed : Bool)
  | clearCode (committed : Bool)
  | clearCancel (committed : Bool)
deriving DecidableEq

def waitingChanges (provider : Provider) (url : String) (userCode : Option String) : Changes :=
  match provider with
  | .claude =>
    ⟨.waiting, "Open the link, sign in to the Claude subscription, approve access and paste the code the page shows.",
      some true, some url, none, none⟩
  | .codex =>
    ⟨.waiting, "Open the link, sign in to ChatGPT and enter the code. This page continues on its own once you approve.",
      none, some url, userCode, none⟩

def doneChanges (plan : Option String) : Changes :=
  ⟨.done, "Signed in." ++ (plan.map (" Plan: " ++ · ++ ".")).getD "", none, none, none, plan⟩

def Ending.changes : Ending -> Changes
  | .failed message => .ending .failed message
  | .cancelled => .ending .cancelled "Cancelled."

/-- One step of a login thread; a step that does not come in its phase changes
nothing.  An exception may come anywhere before the end is told. -/
def ThreadStep.step (provider : Provider) (session : ℕ) (now : ℚ) (stored : Stored) :
    ThreadStep -> Phase -> Option Phase × Stored
  | .checkCancel, .launching => (some (if stored.cancel = some session then .ended .cancelled else .launching), stored)
  | .checkCancel, .waiting => (some (if stored.cancel = some session then .ended .cancelled else .waiting), stored)
  | .checkCancel, .finishing => (some (if stored.cancel = some session then .ended .cancelled else .finishing), stored)
  | .findLink url userCode, .launching =>
    (some (if provider = .codex /\ userCode = none then .launching else .linked url userCode), stored)
  | .tellWaiting, .linked url userCode =>
    (some .waiting, (update session (waitingChanges provider url userCode) now stored).1)
  | .takeCode, .waiting =>
    match stored.code with
    | none => (some .waiting, stored)
    | some found =>
      if provider = .codex \/ found.1 ≠ session then (some .waiting, stored)
      else (some (if isCode found.2 then .typing found.2 else .waiting), { stored with code := none })
  | .typeCode, .typing _ => (some .typed, stored)
  | .tellTyped, .typed =>
    (some .finishing,
      (update session (.ending .verifying "Code sent; Claude Code is completing the sign-in…") now stored).1)
  | .finish, .finishing => (some .stopped, stored)
  | .finish, .waiting => (some (if provider = .codex then .stopped else .waiting), stored)
  | .tellChecking, .stopped =>
    (some .checking, (update session (.ending .verifying "Checking the new sign-in…") now stored).1)
  | .verified plan, .checking => (some (.signedIn plan), stored)
  | .tellDone, .signedIn plan => (some .clearingCode, (update session (doneChanges plan) now stored).1)
  | .tellEnd committed, .ended ending =>
    (some .clearingCode, if committed then (update session ending.changes now stored).1 else stored)
  | .clearCode committed, .clearingCode =>
    (some .clearingCancel, if committed then { stored with code := none } else stored)
  | .clearCancel committed, .clearingCancel => (none, if committed then { stored with cancel := none } else stored)
  | .failure _, .ended ending => (some (.ended ending), stored)
  | .failure message, phase => (some (if phase.working then .ended (.failed message) else phase), stored)
  | _, phase => (some phase, stored)

structure State where
  stored : Stored
  threads : List LoginThread
  calls : List Call
  processes : List Process
  nextSession : ℕ
  nextCall : ℕ
  clock : ℚ

inductive Action
  | spawn (process : Process)
  | die (process : Process)
  | start (process : Process) (now : ℚ) (taken : Bool) (startedBy : String)
  | ask (process : Process) (purpose : Purpose)
  | call (call : ℕ) (now : ℚ) (taken : Bool)
  | thread (session : ℕ) (now : ℚ) (step : ThreadStep)

/-- Whether `start` refuses: a sign-in is already running. -/
def running (processes : List Process) (host : ℕ) (taken : Bool) (now : ℚ) (stored : Stored) : Bool :=
  stored.session.any fun session =>
    session.state.active && alive processes host taken session && (now < session.expiresAt)

def newSession (id : ℕ) (process : Process) (now : ℚ) (startedBy : String) : Session where
  id := id
  state := .starting
  url := none
  userCode := none
  needsCode := false
  message := "Starting the official sign-in…"
  plan := none
  startedAt := now
  updatedAt := now
  expiresAt := now + sessionSeconds
  process := process
  startedBy := String.ofList (startedBy.toList.take 80)

def State.call (state : State) (callId : ℕ) : Option Call := state.calls.find? (·.id = callId)

def State.thread (state : State) (session : ℕ) : Option LoginThread := state.threads.find? (·.session = session)

def next (provider : Provider) (state : State) : Action -> State
  | .spawn process => { state with processes := state.processes ++ [process] }
  | .die process =>
    { state with
      processes := deleteWhere (· = process) state.processes
      threads := deleteWhere (·.process = process) state.threads
      calls := deleteWhere (·.process = process) state.calls }
  | .start process now taken startedBy =>
    if running state.processes process.host taken now state.stored then { state with clock := now }
    else
      { state with
        stored := ⟨some (newSession state.nextSession process now startedBy), none, none⟩
        threads := state.threads ++ [⟨state.nextSession, process, .launching⟩]
        nextSession := state.nextSession + 1
        clock := now }
  | .ask process purpose =>
    if purpose.accepted then
      { state with
        calls := state.calls ++ [⟨state.nextCall, process, .reading purpose⟩]
        nextCall := state.nextCall + 1 }
    else state
  | .call callId now taken =>
    match state.call callId with
    | none => { state with clock := now }
    | some call =>
      let result := call.stage.step state.processes call.process.host taken now state.stored
      { state with
        stored := result.2
        calls :=
          match result.1 with
          | none => deleteWhere (·.id = callId) state.calls
          | some stage =>
            updateWhere (·.id = callId) (fun other => { other with stage := stage })
              state.calls
        clock := now }
  | .thread session now step =>
    match state.thread session with
    | none => { state with clock := now }
    | some thread =>
      let result := step.step provider session now state.stored thread.phase
      { state with
        stored := result.2
        threads :=
          match result.1 with
          | none => deleteWhere (·.session = session) state.threads
          | some phase =>
            updateWhere (·.session = session)
              (fun other => { other with phase := phase }) state.threads
        clock := now }

/-- Processes have ids of their own, a call is made by a live process, and the
clock does not go back. -/
def enabled (state : State) : Action -> Prop
  | .spawn process => process ∉ state.processes
  | .die _ => True
  | .start process now _ _ => process ∈ state.processes /\ state.clock <= now
  | .ask process _ => process ∈ state.processes
  | .call _ now _ => state.clock <= now
  | .thread _ now _ => state.clock <= now

instance (state : State) (action : Action) : Decidable (enabled state action) := by
  cases action <;> unfold enabled <;> infer_instance

def emptyState : State := ⟨⟨none, none, none⟩, [], [], [], 0, 0, 0⟩

def loginMachine (provider : Provider) : Machine State Action where
  initial := fun state => state = emptyState
  enabled := enabled
  next := next provider

instance (provider : Provider) (state : State) (action : Action) : Decidable ((loginMachine provider).enabled state action) :=
  inferInstanceAs (Decidable (enabled state action))

inductive Event
  | told (session : ℕ) (state : LoginState)
  | submitted (session : ℕ) (code : String)
  | typed (session : ℕ) (code : String)
  | cleared (ended owner : ℕ)
deriving DecidableEq

def toldEvents (before after : Stored) : List Event :=
  match after.session with
  | none => []
  | some session =>
    if (before.session.map fun old => (old.id, old.state)) = some (session.id, session.state) then []
    else [.told session.id session.state]

def submittedEvents (state : State) : Action -> List Event
  | .call callId _ _ =>
    match (state.call callId).map Call.stage with
    | some (.submitting session code) => [.submitted session code]
    | _ => []
  | _ => []

def threadEvents (state : State) : Action -> List Event
  | .thread session _ step =>
    match step, (state.thread session).map LoginThread.phase with
    | .typeCode, some (.typing code) => [.typed session code]
    | .clearCode true, some .clearingCode => (state.stored.code.map fun found => Event.cleared session found.1).toList
    | .clearCancel true, some .clearingCancel => (state.stored.cancel.map fun owner => Event.cleared session owner).toList
    | _, _ => []
  | _ => []

def events (provider : Provider) (state : State) (action : Action) : List Event :=
  submittedEvents state action ++ threadEvents state action ++
    toldEvents state.stored (next provider state action).stored

end BananaChat.Subscriptions.Logins
