import BananaChat.Foundation.Numbered
import BananaChat.Agents.Loop

namespace BananaChat.Agents

open Foundation List Bool Numbered Agent Budget

/-!
# The step budget is kept

A reservation is taken before a call and given back after it, and a completed call is counted while
its reservation stands.
-/

inductive Effect (budget : Budget) (agent : Agent) : Budget -> Agent -> List Note -> Prop
  | quiet {after : Agent} (held : after.place.holds = agent.place.holds)
      (owed : after.place.owes -> agent.place.owes) : Effect budget agent budget after []
  | dispatch {after : Agent} (held : after.place.holds = agent.place.holds)
      (owed : after.place.owes -> agent.place.owes) (holding : agent.place.holds)
      (within : budget.steps + budget.reserved <= budget.maxSteps) :
      Effect budget agent budget after [.dispatched budget]
  | reserve {after : Agent} (room : budget.steps + budget.reserved < budget.maxSteps)
      (before : agent.place.holds = false) (held : after.place.holds) (owed : after.place.owes) :
      Effect budget agent { budget with reserved := budget.reserved + 1 } after [.reserved]
  | charge {after : Agent} {step : Bool} {tokens : ℕ} (owing : agent.place.owes)
      (held : after.place.holds) (owed : after.place.owes = !step) :
      Effect budget agent (budget.add (if step then 1 else 0) tokens) after [.charged step tokens]
  | release {after : Agent} (holding : agent.place.holds) (held : after.place.holds = false) :
      Effect budget agent budget.releaseStep after [.released]

@[simp] theorem goTo_place (agent : Agent) (place : Place) : (agent.goTo place).place = place := rfl

@[simp] theorem retry_holds (attempt : ℕ) : (retry attempt).holds := by
  unfold retry
  split <;> rfl

@[simp] theorem retry_owes (attempt : ℕ) : (retry attempt).owes := by
  unfold retry
  split <;> rfl

theorem Place.holds_of_owes {place : Place} (owed : place.owes) : place.holds := by
  cases place <;> first | rfl | cases owed

variable {after agent : Agent} {budget budget' : Budget} {notes : List Note} {history : List Report}
  {settings : Settings} {state : State}

theorem finish_effect {attempt : ℕ} (here : agent.place = .asking attempt) (finished : Finished) (leased late : Bool)
  (moved : move budget agent (.finish finished leased late) = some (budget', after, notes)) :
  Effect budget agent budget' after notes := by
  simp only [move, here] at moved
  have owing : agent.place.owes := by
    rw [here]
    rfl
  have holding : agent.place.holds := Place.holds_of_owes owing
  split at moved
  · cases moved
    refine .quiet ?_ (fun _ => owing)
    rw [goTo_place, holding]
    split
    · rfl
    · exact retry_holds attempt
  · cases moved
    cases step : finished.step with
    | true =>
      refine .charge owing ?_ ?_
      · split
        · rfl
        · rfl
      · split
        · rfl
        · rfl
    | false =>
      refine .charge owing ?_ ?_
      · split
        · rfl
        · exact retry_holds attempt
      · split
        · rfl
        · exact retry_owes attempt

theorem move_effect {next : Move} (moved : move budget agent next = some (budget', after, notes)) :
  Effect budget agent budget' after notes := by
  cases next with
  | finish finished leased late =>
    cases here : agent.place with
    | asking attempt => exact finish_effect here finished leased late moved
    | _ => simp only [move, here, reduceCtorEq] at moved
  | checkpoint late =>
    cases here : agent.place with
    | top =>
      simp only [move, here] at moved
      split at moved
      · cases moved
        exact .quiet (by rw [here]; rfl) (fun owed => nomatch owed)
      split at moved
      · cases moved
        exact .quiet (by rw [here]; rfl) (fun owed => nomatch owed)
      · cases moved
        exact .quiet (by rw [here]; rfl) (fun owed => nomatch owed)
    | _ => simp only [move, here, reduceCtorEq] at moved
  | reserve =>
    cases here : agent.place with
    | ready =>
      simp only [move, here] at moved
      cases taken : budget.reserveStep with
      | none =>
        rw [taken] at moved
        cases moved
        exact .quiet (by rw [here]; rfl) (fun owed => nomatch owed)
      | some reserved =>
        rw [taken] at moved
        cases moved
        unfold reserveStep at taken
        split at taken
        · cases taken
        · rename_i room
          cases taken
          exact .reserve (Nat.lt_of_not_le room) (by rw [here]; rfl) rfl rfl
    | _ => simp only [move, here, reduceCtorEq] at moved
  | authorize late paused =>
    cases here : agent.place with
    | calling attempt =>
      have owing : agent.place.owes := by
        rw [here]
        rfl
      simp only [move, here] at moved
      split at moved
      · cases moved
        exact .quiet (by rw [here]; rfl) (fun _ => owing)
      · rename_i admitted
        split at moved
        · cases moved
          exact .quiet rfl id
        · cases moved
          rw [not_eq_false, checkAdmission, and_eq_true, decide_eq_true_eq] at admitted
          exact .dispatch (by rw [here]; rfl) (fun _ => owing) (Place.holds_of_owes owing) admitted.2
    | _ => simp only [move, here, reduceCtorEq] at moved
  | problem =>
    cases here : agent.place with
    | calling attempt | asking attempt =>
      simp only [move, here] at moved
      cases moved
      exact .quiet (by rw [here, goTo_place, retry_holds]; rfl) (fun _ => by rw [here]; rfl)
    | _ => simp only [move, here, reduceCtorEq] at moved
  | fail ending =>
    cases here : agent.place with
    | calling attempt | asking attempt =>
      simp only [move, here] at moved
      cases moved
      exact .quiet (by rw [here]; rfl) (fun _ => by rw [here]; rfl)
    | top | ready | working =>
      simp only [move, here] at moved
      cases moved
      exact .quiet (by rw [here]; rfl) (fun owed => nomatch owed)
    | _ => simp only [move, here, reduceCtorEq] at moved
  | release =>
    cases here : agent.place with
    | returning | raising counted ending =>
      simp only [move, here] at moved
      cases moved
      exact .release (by rw [here]; rfl) rfl
    | _ => simp only [move, here, reduceCtorEq] at moved
  | answer | again =>
    cases here : agent.place with
    | working =>
      simp only [move, here] at moved
      cases moved
      exact .quiet (by rw [here]; rfl) (fun owed => nomatch owed)
    | _ => simp only [move, here, reduceCtorEq] at moved

def Agent.holds (agent : Agent) : Bool := agent.place.holds

def Agent.owes (agent : Agent) : Bool := agent.place.owes

def holdsAt (agents : List Agent) (index : ℕ) : Bool := (agents[index]?).any Agent.holds

def taken (index : ℕ) (history : List Report) : ℕ := history.count ⟨index, .reserved⟩

def givenBack (index : ℕ) (history : List Report) : ℕ := history.count ⟨index, .released⟩

def Note.steps : Note -> ℕ
  | .charged true _ => 1
  | _ => 0

def Note.tokens : Note -> ℕ
  | .charged _ tokens => tokens
  | _ => 0

def chargedSteps (history : List Report) : ℕ := (history.map (·.note.steps)).sum

def chargedTokens (history : List Report) : ℕ := (history.map (·.note.tokens)).sum

def withinCap (history : List Report) : Prop :=
  ∀ index budget, (⟨index, .dispatched budget⟩ : Report) ∈ history -> budget.steps + budget.reserved <= budget.maxSteps

structure Kept (settings : Settings) (history : List Report) (state : State) : Prop where
  cap : state.budget.maxSteps <= settings.maxSteps
  bounded : state.budget.steps + state.agents.countP Agent.owes <= settings.maxSteps
  reserved : state.budget.reserved = state.agents.countP Agent.holds
  matched : ∀ index, taken index history = givenBack index history + (holdsAt state.agents index).toNat
  dispatched : withinCap history
  steps : state.budget.steps = chargedSteps history
  tokens : state.budget.tokens = chargedTokens history

theorem countP_owes_le_holds (agents : List Agent) : agents.countP owes <= agents.countP holds :=
  countP_mono_left fun _ _ owed => Place.holds_of_owes owed

theorem holdsAt_set {agents : List Agent} {index : ℕ} (found : agents[index]? = some agent) (after : Agent) (other : ℕ) :
  holdsAt (agents.set index after) other = if other = index then after.holds else holdsAt agents other := by
  unfold holdsAt
  rw [get_set found]
  split <;> rfl

theorem count_of_ne {index other : ℕ} (apart : index ≠ other) (notes : List Note) (note : Note) :
  (notes.map (Report.mk index)).count ⟨other, note⟩ = 0 := by
  refine count_eq_zero.mpr fun mem => ?_
  rcases mem_map.mp mem with ⟨_, _, same⟩
  cases same
  exact apart rfl

theorem taken_append (index : ℕ) (history more : List Report) :
    taken index (history ++ more) = taken index history + taken index more := count_append

theorem givenBack_append (index : ℕ) (history more : List Report) :
    givenBack index (history ++ more) = givenBack index history + givenBack index more := count_append

theorem chargedSteps_append (history more : List Report) :
  chargedSteps (history ++ more) = chargedSteps history + chargedSteps more := by
  rw [chargedSteps, map_append, sum_append]
  rfl

theorem chargedTokens_append (history more : List Report) :
  chargedTokens (history ++ more) = chargedTokens history + chargedTokens more := by
  rw [chargedTokens, map_append, sum_append]
  rfl

theorem withinCap_append {more : List Report} (earlier : withinCap history) (later : withinCap more) :
  withinCap (history ++ more) := by
  intro index budget mem
  rcases mem_append.mp mem with before | after
  · exact earlier index budget before
  · exact later index budget after

theorem toNat_le_of_imp {first second : Bool} (implied : first -> second) : first.toNat <= second.toNat := by
  cases first with
  | false => exact Nat.zero_le _
  | true => exact (congrArg toNat (implied rfl)).ge

/-- The numbers of a step: what it does to the budget, to the reservation of its agent, to the step
the agent owes, and what its notes say. -/
structure Balance (budget : Budget) (agent : Agent) (budget' : Budget) (after : Agent) (notes : List Note) : Prop where
  cap : budget'.maxSteps = budget.maxSteps
  steps : budget'.steps = budget.steps + (notes.map Note.steps).sum
  tokens : budget'.tokens = budget.tokens + (notes.map Note.tokens).sum
  held : agent.holds.toNat + notes.count .reserved = after.holds.toNat + notes.count .released
  owed : budget'.steps + after.owes.toNat <= budget.steps + agent.owes.toNat \/
    (budget.steps + budget.reserved < budget.maxSteps /\ budget'.steps = budget.steps)
  reserved : agent.holds.toNat <= budget.reserved ->
    budget'.reserved + agent.holds.toNat = budget.reserved + after.holds.toNat
  within : ∀ dispatched, Note.dispatched dispatched ∈ notes -> dispatched.steps + dispatched.reserved <= dispatched.maxSteps

theorem Effect.balance (effect : Effect budget agent budget' after notes) : Balance budget agent budget' after notes := by
  cases effect with
  | quiet held owed =>
    refine ⟨rfl, rfl, rfl, ?_, .inl ?_, ?_, ?_⟩
    · simp only [holds, held, count_nil]
    · exact Nat.add_le_add_left (toNat_le_of_imp owed) _
    · intro _
      simp only [holds, held]
    · intro dispatched mem
      cases mem
  | dispatch held owed holding within =>
    refine ⟨rfl, rfl, rfl, ?_, .inl ?_, ?_, ?_⟩
    · simp [holds, held]
    · exact Nat.add_le_add_left (toNat_le_of_imp owed) _
    · intro _
      simp only [holds, held]
    · intro dispatched mem
      cases mem_singleton.mp mem
      exact within
  | reserve room before held owed =>
    refine ⟨rfl, rfl, rfl, ?_, .inr ⟨room, rfl⟩, ?_, ?_⟩
    · simp [holds, before, held]
    · intro _
      simp [holds, before, held]
    · intro dispatched mem
      cases mem_singleton.mp mem
  | @charge after step tokens owing held owed =>
    have holding := Place.holds_of_owes owing
    refine ⟨rfl, ?_, rfl, ?_, .inl ?_, ?_, ?_⟩
    · cases step <;> rfl
    · simp [holds, holding, held]
    · simp only [owes, owing, owed, add]
      cases step <;> simp
    · intro _
      simp [holds, holding, held, add]
    · intro dispatched mem
      cases mem_singleton.mp mem
  | release holding held =>
    refine ⟨rfl, rfl, rfl, ?_, .inl ?_, ?_, ?_⟩
    · simp [holds, holding, held]
    · have nothing : after.place.owes = false := by
        cases owed : after.place.owes with
        | false => rfl
        | true => exact absurd (Place.holds_of_owes owed) (by rw [held]; exact false_ne_true)
      simp only [owes, nothing, releaseStep, toNat_false]
      exact Nat.le_add_right _ _
    · intro one
      simp only [holds, holding, held, releaseStep, toNat_true, toNat_false] at one ⊢
      omega
    · intro _ mem
      cases mem_singleton.mp mem

theorem Kept.act (kept : Kept settings history state) {index : ℕ} (found : state.agents[index]? = some agent)
  (balance : Balance state.budget agent budget after notes) : Kept settings (history ++ notes.map (Report.mk index))
    { state with budget := budget, agents := state.agents.set index after } := by
  have owes := countP_set found after Agent.owes
  have holds := countP_set found after Agent.holds
  have owedHeld := countP_owes_le_holds state.agents
  have oneHeld : agent.holds.toNat <= state.budget.reserved := by
    rw [kept.reserved]
    exact toNat_le_countP found Agent.holds
  have reserved := balance.reserved oneHeld
  have bounded := kept.bounded
  have cap := kept.cap
  have before := kept.reserved
  refine ⟨?_, ?_, ?_, fun other => ?_, ?_, ?_, ?_⟩
  · exact balance.cap.trans_le kept.cap
  · rcases balance.owed with _ | ⟨_, same⟩
    · dsimp only
      omega
    · have one : after.owes.toNat <= 1 := toNat_le after.owes
      dsimp only
      omega
  · dsimp only
    omega
  · rw [taken_append, givenBack_append, kept.matched other]
    by_cases same : index = other
    · subst same
      have injective : Function.Injective (Report.mk index) := fun _ _ equal => (Report.mk.inj equal).2
      have took : taken index (notes.map (Report.mk index)) = notes.count .reserved :=
        count_map_of_injective notes _ injective _
      have gave : givenBack index (notes.map (Report.mk index)) = notes.count .released :=
        count_map_of_injective notes _ injective _
      have wasHolding : holdsAt state.agents index = agent.holds := by
        unfold holdsAt
        rw [found]
        rfl
      rw [took, gave, holdsAt_set found, if_pos rfl, wasHolding]
      have held := balance.held
      omega
    · have took : taken other (notes.map (Report.mk index)) = 0 := count_of_ne same notes _
      have gave : givenBack other (notes.map (Report.mk index)) = 0 := count_of_ne same notes _
      rw [took, gave, holdsAt_set found, if_neg (same ·.symm), Nat.add_zero, Nat.add_zero]
  · refine withinCap_append kept.dispatched fun other dispatched mem => ?_
    rcases mem_map.mp mem with ⟨_, inside, equal⟩
    cases equal
    exact balance.within dispatched inside
  · rw [chargedSteps_append, <- kept.steps, balance.steps, chargedSteps, map_map]
    rfl
  · rw [chargedTokens_append, <- kept.tokens, balance.tokens, chargedTokens, map_map]
    rfl

theorem Kept.start (settings : Settings) : Kept settings [] ⟨Budget.start settings, [start none], 0⟩ := by
  refine ⟨le_refl _, Nat.zero_le _, rfl, fun index => ?_, ?_, rfl, rfl⟩
  · cases index <;> rfl
  · intro _ _ mem
    cases mem

section

variable (kept : Kept settings history state)
include kept

theorem Kept.tighten (maxSteps maxTokens : ℕ) :
  Kept settings (history ++ []) { state with budget := state.budget.tighten maxSteps maxTokens } := by
  rw [append_nil]
  exact ⟨(min_le_left _ _).trans kept.cap, kept.bounded, kept.reserved, kept.matched, kept.dispatched, kept.steps,
    kept.tokens⟩

theorem Kept.agents {after : State} (budget : after.budget = state.budget)
  (owed : after.agents.countP owes = state.agents.countP owes)
  (held : after.agents.countP holds = state.agents.countP holds)
  (places : ∀ index, holdsAt after.agents index = holdsAt state.agents index) :
  Kept settings (history ++ []) after := by
  rw [append_nil]
  refine ⟨?_, ?_, ?_, fun index => ?_, kept.dispatched, ?_, ?_⟩
  · rw [budget]
    exact kept.cap
  · rw [budget, owed]
    exact kept.bounded
  · rw [budget, held]
    exact kept.reserved
  · rw [places]
    exact kept.matched index
  · rw [budget]
    exact kept.steps
  · rw [budget]
    exact kept.tokens

theorem Kept.delegate {after : State} {work : ℕ} (started : Agents.delegate settings state work = some after) :
  Kept settings (history ++ []) after := by
  unfold Agents.delegate at started
  split at started
  · cases started
  rename_i main others agents
  split at started
  swap
  · cases started
  rename_i possible
  cases started
  have idle : main.holds = false := by rw [Agent.holds, possible.1]; rfl
  have free : main.owes = false := by rw [Agent.owes, possible.1]; rfl
  have nobody : ∀ share, (replicate work (Agent.start share)).countP Agent.holds = 0 /\
      (replicate work (Agent.start share)).countP Agent.owes = 0 := by
    intro _
    rw [countP_replicate, countP_replicate]
    exact ⟨rfl, rfl⟩
  refine kept.agents rfl ?_ ?_ fun index => ?_
  · rw [cons_append, countP_cons, countP_append, (nobody _).2, agents, countP_cons, free]
    rfl
  · rw [cons_append, countP_cons, countP_append, (nobody _).1, agents, countP_cons, idle]
    rfl
  · rw [agents]
    cases index with
    | zero => exact idle.symm
    | succ later =>
      unfold holdsAt
      rw [cons_append, getElem?_cons_succ, getElem?_cons_succ, getElem?_append]
      split
      · rfl
      · rename_i beyond
        rw [getElem?_eq_none (Nat.le_of_not_lt beyond), getElem?_replicate]
        split <;> rfl

theorem Kept.join {after : State} {cancelled : Bool} (joined : Agents.join state cancelled = some after) :
  Kept settings (history ++ []) after := by
  unfold Agents.join at joined
  split at joined
  · cases joined
  rename_i main others agents
  split at joined
  swap
  · cases joined
  rename_i lanes waiting
  split at joined
  swap
  · cases joined
  cases joined
  have idle : main.holds = false := by rw [holds, waiting]; rfl
  have free : main.owes = false := by rw [owes, waiting]; rfl
  generalize place : (if (cancelled || lanes.any (endingOf state.agents · = some .stopped)) then
    Place.ended .stopped else Place.working) = goes
  have stillIdle : (main.goTo goes).holds = false := by
    rw [<- place, holds, goTo_place]
    split <;> rfl
  have stillFree : (main.goTo goes).owes = false := by
    rw [<- place, owes, goTo_place]
    split <;> rfl
  refine kept.agents rfl ?_ ?_ fun index => ?_
  · rw [agents, countP_cons, countP_cons, free, stillFree]
  · rw [agents, countP_cons, countP_cons, idle, stillIdle]
  · rw [agents]
    cases index with
    | zero => exact stillIdle.trans idle.symm
    | succ later => rfl

theorem Kept.step {action : Action} {after : State} {told : List Report}
  (performed : perform settings state action = some (after, told)) : Kept settings (history ++ told) after := by
  cases action with
  | tighten maxSteps maxTokens =>
    cases performed
    exact kept.tighten maxSteps maxTokens
  | act index next =>
    rcases Option.bind_eq_some_iff.mp performed with ⟨_, found, rest⟩
    rcases Option.map_eq_some_iff.mp rest with ⟨⟨_, _, _⟩, happened, same⟩
    cases same
    exact kept.act found (move_effect happened).balance
  | delegate work =>
    rcases Option.map_eq_some_iff.mp performed with ⟨_, happened, same⟩
    cases same
    exact kept.delegate happened
  | join cancelled =>
    rcases Option.map_eq_some_iff.mp performed with ⟨_, happened, same⟩
    cases same
    exact kept.join happened

end

theorem kept_trace (trace : (loop settings).Trace (reports settings) history state) : Kept settings history state := by
  refine Machine.Trace.induct (fun start initial => ?_) (fun past current action kept enabled => ?_) trace
  · cases initial
    exact Kept.start settings
  · rcases Option.isSome_iff_exists.mp enabled with ⟨⟨after, told⟩, performed⟩
    have next : (loop settings).next current action = after := by
      simp [loop, performed]
    have notes : reports settings current action = told := by
      simp [reports, performed]
    rw [next, notes]
    exact kept.step performed

def Agent.isEnded (agent : Agent) : Bool :=
  match agent.place with
  | .ended _ => true
  | _ => false

instance decidableEnabled (settings : Settings) (state : State) (action : Action) :
  Decidable ((loop settings).enabled state action) :=
  inferInstanceAs (Decidable ((perform settings state action).isSome))

/-- Three steps are allowed.  The main agent takes one and delegates to two sub-agents, each of which
reserves one.  The first completes its call; the cap is lowered to two while the other waits, and
its call is refused. -/
def swarmRun : List Action :=
  let reply : Finished := ⟨true, false, some 4, some 3, true⟩
  [.act 0 (.checkpoint false), .act 0 .reserve, .act 0 (.authorize false false), .act 0 (.finish reply true false),
    .act 0 .release, .delegate 2, .act 1 (.checkpoint false), .act 2 (.checkpoint false), .act 1 .reserve,
    .act 2 .reserve, .act 1 (.authorize false false), .act 1 (.finish reply true false), .tighten 2 100,
    .act 1 .release, .act 2 (.authorize false false), .act 2 .release]

end BananaChat.Agents
