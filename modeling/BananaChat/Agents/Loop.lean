import BananaChat.Foundation.Machine

namespace BananaChat.Agents

open Foundation

/-!
# The agents of a run and their step budget

One run has a main agent and, in a swarm, sub-agents on threads of their own.
-/

/-- `Budget`, less its deadline: what a clock says is part of each step that reads it. -/
structure Budget where
  maxSteps : ℕ
  maxTokens : ℕ
  steps : ℕ
  tokens : ℕ
  /-- Model calls in progress: they count against `maxSteps`. -/
  reserved : ℕ
deriving DecidableEq

namespace Budget

/-- Whether `check` passes, at a clock before or past the deadline. -/
def check (late : Bool) (budget : Budget) : Bool :=
  (budget.steps < budget.maxSteps) && (budget.tokens < budget.maxTokens) && !late

def add (steps tokens : ℕ) (budget : Budget) : Budget :=
  { budget with steps := budget.steps + steps, tokens := budget.tokens + tokens }

/-- `reserve_step`; `none` is its `StopRun`. -/
def reserveStep (budget : Budget) : Option Budget :=
  if budget.maxSteps <= budget.steps + budget.reserved then none
  else some { budget with reserved := budget.reserved + 1 }

def releaseStep (budget : Budget) : Budget := { budget with reserved := budget.reserved - 1 }

/-- Whether `check_admission` passes. -/
def checkAdmission (late : Bool) (budget : Budget) : Bool :=
  budget.check late && (budget.steps + budget.reserved <= budget.maxSteps)

def stepsLeft (budget : Budget) : ℕ := budget.maxSteps - budget.steps

def tighten (maxSteps maxTokens : ℕ) (budget : Budget) : Budget :=
  { budget with maxSteps := min budget.maxSteps maxSteps, maxTokens := min budget.maxTokens maxTokens }

end Budget

/-- How an agent ends: with an answer, at a limit of its lane, by `StopRun` or `LeaseLost`, or by
another exception. -/
inductive Ending
  | answered
  | outOfBudget
  | stopped
  | failed
deriving DecidableEq

inductive Place
  /-- The top of the loop of `_agent`. -/
  | top
  /-- Past the checkpoint. -/
  | ready
  /-- In `_call_model`, before the provider's call. -/
  | calling (attempt : ℕ)
  /-- The provider's call runs. -/
  | asking (attempt : ℕ)
  /-- `_call_model` returns a reply. -/
  | returning
  /-- An exception leaves `_call_model`, after a completed step was counted or not. -/
  | raising (counted : Bool) (ending : Ending)
  /-- The step is stored and its tool calls run. -/
  | working
  /-- Waiting for these sub-agents. -/
  | delegating (lanes : List ℕ)
  | ended (ending : Ending)
deriving DecidableEq

/-- Inside the `try` that ends with `release_step`. -/
def Place.holds : Place -> Bool
  | .calling _ | .asking _ | .returning | .raising _ _ => true
  | _ => false

def Place.owes : Place -> Bool
  | .calling _ | .asking _ | .raising false _ => true
  | _ => false

structure Agent where
  place : Place
  /-- `lane_steps`: the share of a sub-agent. -/
  laneSteps : Option ℕ
  stepsHere : ℕ

def Agent.goTo (agent : Agent) (place : Place) : Agent := { agent with place := place }

def modelRetries : ℕ := 3

def retry (attempt : ℕ) : Place :=
  if modelRetries < attempt + 1 then .raising false .failed else .calling (attempt + 1)

/-- `inference.Finished`, as far as `_charge` reads it. -/
structure Finished where
  completed : Bool
  truncated : Bool
  promptTokens : Option ℕ
  completionTokens : Option ℕ
  billable : Bool

namespace Finished

section

variable (finished : Finished)

def tokensIn : ℕ := finished.promptTokens.getD 0

def tokensOut : ℕ := finished.completionTokens.getD 0

def step : Bool := finished.completed || finished.truncated

def free : Bool := !finished.step && (finished.tokensOut = 0) && !finished.billable

end

end Finished

inductive Note
  | reserved
  | released
  /-- The provider is called, under this budget. -/
  | dispatched (budget : Budget)
  | charged (step : Bool) (tokens : ℕ)
deriving DecidableEq

inductive Move
  /-- The share of the lane, then the checks of `_checkpoint`. -/
  | checkpoint (late : Bool)
  | reserve
  /-- `_authorize_model`; `paused` is its `PauseModel`, after which the call is prepared again. -/
  | authorize (late paused : Bool)
  /-- No answer: no place in the queue, a call that was cancelled, or one that could not start. -/
  | problem
  /-- An answer, its charge, and whether the run still has its lease and its time. -/
  | finish (finished : Finished) (leased late : Bool)
  /-- Any other exception. -/
  | fail (ending : Ending)
  /-- The `finally` around the call. -/
  | release
  /-- The reply is the answer, or a tool call finished the work. -/
  | answer
  | again

/-- One move of an agent: the budget and the agent after it, and its notes.  `none` where the
agent is not at a place for it. -/
def move (budget : Budget) (agent : Agent) (next : Move) : Option (Budget × Agent × List Note) :=
  match agent.place, next with
  | .top, .checkpoint late =>
    if agent.laneSteps.any (· <= agent.stepsHere) then
      some (budget, agent.goTo (.ended .outOfBudget), [])
    else if budget.check late then some (budget, agent.goTo .ready, [])
    else some (budget, agent.goTo (.ended .stopped), [])
  | .ready, .reserve =>
    match budget.reserveStep with
    | none => some (budget, agent.goTo (.ended .stopped), [])
    | some taken => some (taken, agent.goTo (.calling 0), [.reserved])
  | .calling attempt, .authorize late paused =>
    if budget.checkAdmission late = false then some (budget, agent.goTo (.raising false .stopped), [])
    else if paused then some (budget, agent, [])
    else some (budget, agent.goTo (.asking attempt), [.dispatched budget])
  | .calling attempt, .problem => some (budget, agent.goTo (retry attempt), [])
  | .asking attempt, .problem => some (budget, agent.goTo (retry attempt), [])
  | .asking attempt, .finish finished leased late =>
    if finished.free then
      some (budget, agent.goTo (if late then .raising false .stopped else retry attempt), [])
    else
      let charged := budget.add (if finished.step then 1 else 0) (finished.tokensIn + finished.tokensOut)
      let after := if leased = false \/ late then .raising finished.step .stopped
        else if finished.step then .returning
        else retry attempt
      some (charged, agent.goTo after, [.charged finished.step (finished.tokensIn + finished.tokensOut)])
  | .calling _, .fail ending => some (budget, agent.goTo (.raising false ending), [])
  | .asking _, .fail ending => some (budget, agent.goTo (.raising false ending), [])
  | .returning, .release =>
    some (budget.releaseStep, { agent with place := .working, stepsHere := agent.stepsHere + 1 }, [.released])
  | .raising _ ending, .release => some (budget.releaseStep, agent.goTo (.ended ending), [.released])
  | .top, .fail ending => some (budget, agent.goTo (.ended ending), [])
  | .ready, .fail ending => some (budget, agent.goTo (.ended ending), [])
  | .working, .fail ending => some (budget, agent.goTo (.ended ending), [])
  | .working, .answer => some (budget, agent.goTo (.ended .answered), [])
  | .working, .again => some (budget, agent.goTo .top, [])
  | _, _ => none

structure Settings where
  maxSteps : ℕ
  maxTokens : ℕ
  maxSubagents : ℕ
  swarm : Bool

structure State where
  budget : Budget
  agents : List Agent
  lanesStarted : ℕ

inductive Action
  /-- Some agent looks at the settings. -/
  | tighten (maxSteps maxTokens : ℕ)
  | act (agent : ℕ) (next : Move)
  /-- The main agent calls `delegate` for this many tasks. -/
  | delegate (work : ℕ)
  /-- The sub-agents have ended; the run may be cancelled by then. -/
  | join (cancelled : Bool)

structure Report where
  agent : ℕ
  note : Note
deriving DecidableEq

def laneShare (left work : ℕ) : ℕ := max 2 ((left - min 5 (max 1 (left / 4))) / work)

def Agent.start (laneSteps : Option ℕ) : Agent := ⟨.top, laneSteps, 0⟩

def endingOf (agents : List Agent) (index : ℕ) : Option Ending :=
  (agents[index]?).bind fun agent => match agent.place with
    | .ended ending => some ending
    | _ => none

/-- `_delegate`, up to the threads it starts. -/
def delegate (settings : Settings) (state : State) (work : ℕ) : Option State :=
  match state.agents with
  | [] => none
  | main :: others =>
    if main.place = .working /\ settings.swarm /\ 0 < work /\ state.lanesStarted + work <= settings.maxSubagents then
      let lanes := List.range' state.agents.length work
      let share := laneShare state.budget.stepsLeft work
      some { state with
        agents := main.goTo (.delegating lanes) :: others ++ List.replicate work (Agent.start (some share))
        lanesStarted := state.lanesStarted + work }
    else none

/-- `_delegate`, once every future has a result: a sub-agent that was stopped stops the main agent. -/
def join (state : State) (cancelled : Bool) : Option State :=
  match state.agents with
  | [] => none
  | main :: others =>
    match main.place with
    | .delegating lanes =>
      if lanes.all (fun lane => (endingOf state.agents lane).isSome) then
        let stops := cancelled || lanes.any (endingOf state.agents · = some .stopped)
        some { state with agents := main.goTo (if stops then .ended .stopped else .working) :: others }
      else none
    | _ => none

def perform (settings : Settings) (state : State) (action : Action) : Option (State × List Report) :=
  match action with
  | .tighten maxSteps maxTokens => some ({ state with budget := state.budget.tighten maxSteps maxTokens }, [])
  | .act index next =>
    (state.agents[index]?).bind fun agent => (move state.budget agent next).map fun moved =>
      ({ state with budget := moved.1, agents := state.agents.set index moved.2.1 }, moved.2.2.map (Report.mk index))
  | .delegate work => (delegate settings state work).map fun started => (started, [])
  | .join cancelled => (join state cancelled).map fun joined => (joined, [])

def Budget.start (settings : Settings) : Budget := ⟨settings.maxSteps, settings.maxTokens, 0, 0, 0⟩

def loop (settings : Settings) : Machine State Action where
  initial state := state = ⟨Budget.start settings, [Agent.start none], 0⟩
  enabled state action := (perform settings state action).isSome
  next state action := ((perform settings state action).map Prod.fst).getD state

def reports (settings : Settings) (state : State) (action : Action) : List Report :=
  ((perform settings state action).map Prod.snd).getD []

end BananaChat.Agents
