import BananaChat.Foundation.Lists

namespace BananaChat.Foundation

open List

universe u v w

/-!
# Machines, their runs and what a run reports

A machine is a state space with guarded actions.
-/

/-- A guarded transition system whose actions resolve every choice. -/
structure Machine (State : Type u) (Action : Type v) where
  initial : State -> Prop
  enabled : State -> Action -> Prop
  next : State -> Action -> State

namespace Machine

variable {State : Type u} {Action : Type v} {Event : Type w} (machine : Machine State Action)

def run : State -> List Action -> State
  | state, [] => state
  | state, action :: rest => run (machine.next state action) rest

def Admits : State -> List Action -> Prop
  | _, [] => True
  | state, action :: rest => machine.enabled state action /\ Admits (machine.next state action) rest

instance decidableAdmits [∀ state action, Decidable (machine.enabled state action)] :
    ∀ (actions : List Action) (state : State), Decidable (machine.Admits state actions)
  | [], _ => inferInstanceAs (Decidable True)
  | action :: rest, state =>
    haveI := decidableAdmits rest (machine.next state action)
    inferInstanceAs (Decidable (machine.enabled state action /\ _))

inductive Reachable : State -> Prop
  | start {state : State} : machine.initial state -> Reachable state
  | next {state : State} {action : Action} :
      Reachable state -> machine.enabled state action -> Reachable (machine.next state action)

variable {machine}

theorem Reachable.run {state : State} (reachable : machine.Reachable state) (actions : List Action)
  (admitted : machine.Admits state actions) : machine.Reachable (machine.run state actions) := by
  induction actions generalizing state with
  | nil => exact reachable
  | cons action rest ih =>
    exact ih (reachable.next admitted.1) admitted.2

variable (machine)

/-- A property of states that starts out true and survives every enabled action. -/
structure Invariant (holds : State -> Prop) : Prop where
  initial : ∀ state, machine.initial state -> holds state
  step : ∀ state action, holds state -> machine.enabled state action ->
    holds (machine.next state action)

variable {machine}

theorem Invariant.reachable {holds : State -> Prop} (invariant : machine.Invariant holds)
  {state : State} (reachable : machine.Reachable state) : holds state := by
  induction reachable with
  | start isInitial => exact invariant.initial _ isInitial
  | next _ enabled ih => exact invariant.step _ _ ih enabled

variable (machine)

def Throughout (holds : State -> Prop) : State -> List Action -> Prop
  | state, [] => holds state
  | state, action :: rest => holds state /\ Throughout holds (machine.next state action) rest

instance decidableThroughout {holds : State -> Prop} [∀ state, Decidable (holds state)] :
    ∀ (actions : List Action) (state : State), Decidable (machine.Throughout holds state actions)
  | [], state => inferInstanceAs (Decidable (holds state))
  | action :: rest, state =>
    haveI : Decidable (machine.Throughout holds (machine.next state action) rest) :=
      decidableThroughout rest (machine.next state action)
    inferInstanceAs (Decidable (holds state /\ _))

def guarded (condition : State -> Action -> Prop) : Machine State Action := { machine with enabled := condition }

variable {machine}

variable {condition : State -> Action -> Prop} {state : State} {past : List Event}

/-- A property that a step keeps exactly under a condition holds all along the
runs whose steps meet it, and along no other. -/
theorem throughout_iff {known holds : State -> Prop}
  (kept : ∀ state action, known state -> machine.enabled state action -> known (machine.next state action))
  (step : ∀ state action, known state -> machine.enabled state action -> holds state ->
    (holds (machine.next state action) ↔ condition state action)) (actions : List Action)
  (admitted : machine.Admits state actions) (isKnown : known state) (holdsNow : holds state) :
  machine.Throughout holds state actions ↔ (machine.guarded condition).Admits state actions := by
  induction actions generalizing state with
  | nil => exact iff_of_true holdsNow trivial
  | cons action rest ih =>
    have onward := step state action isKnown admitted.1 holdsNow
    have ahead := kept state action isKnown admitted.1
    constructor
    · rintro ⟨_, later⟩
      have holdsNext : holds (machine.next state action) := by
        cases rest with
        | nil => exact later
        | cons other others => exact later.1
      exact ⟨onward.mp holdsNext, (ih admitted.2 ahead holdsNext).mp later⟩
    · rintro ⟨meets, later⟩
      exact ⟨holdsNow, (ih admitted.2 ahead (onward.mpr meets)).mpr later⟩

/-- Two properties of which the second is the stronger, and is kept as long as
the first one holds, hold all along the same runs. -/
theorem throughout_congr {known first second : State -> Prop}
  (kept : ∀ state action, known state -> machine.enabled state action -> known (machine.next state action))
  (weaker : ∀ state, known state -> second state -> first state)
  (step : ∀ state action, known state -> machine.enabled state action -> second state ->
    first (machine.next state action) -> second (machine.next state action)) (actions : List Action)
  (admitted : machine.Admits state actions) (isKnown : known state) (secondNow : second state) :
  machine.Throughout first state actions ↔ machine.Throughout second state actions := by
  induction actions generalizing state with
  | nil => exact iff_of_true (weaker state isKnown secondNow) secondNow
  | cons action rest ih =>
    have ahead := kept state action isKnown admitted.1
    constructor
    · rintro ⟨_, later⟩
      have firstNext : first (machine.next state action) := by
        cases rest with
        | nil => exact later
        | cons other others => exact later.1
      have secondNext := step state action isKnown admitted.1 secondNow firstNext
      exact ⟨secondNow, (ih admitted.2 ahead secondNext).mp later⟩
    · rintro ⟨_, later⟩
      have secondNext : second (machine.next state action) := by
        cases rest with
        | nil => exact later
        | cons other others => exact later.1
      exact ⟨weaker state isKnown secondNow, (ih admitted.2 ahead secondNext).mpr later⟩

theorem admits_and (first second : State -> Action -> Prop) (actions : List Action) (state : State) :
  (machine.guarded fun state action => first state action /\ second state action).Admits state actions ↔
    (machine.guarded first).Admits state actions /\ (machine.guarded second).Admits state actions := by
  induction actions generalizing state with
  | nil => exact ⟨fun _ => ⟨trivial, trivial⟩, fun _ => trivial⟩
  | cons action rest ih =>
    have later := ih (machine.next state action)
    constructor
    · rintro ⟨both, others⟩
      exact ⟨⟨both.1, (later.mp others).1⟩, both.2, (later.mp others).2⟩
    · rintro ⟨⟨firstNow, firstLater⟩, secondNow, secondLater⟩
      exact ⟨⟨firstNow, secondNow⟩, later.mpr ⟨firstLater, secondLater⟩⟩

theorem admits_congr {first second : State -> Action -> Prop} (same : ∀ state action, first state action ↔ second state action)
  (actions : List Action) (state : State) :
  (machine.guarded first).Admits state actions ↔ (machine.guarded second).Admits state actions := by
  induction actions generalizing state with
  | nil => exact Iff.rfl
  | cons action rest ih => exact and_congr (same state action) (ih _)

theorem admits_always (always : ∀ state action, condition state action) (actions : List Action) (state : State) :
  (machine.guarded condition).Admits state actions := by
  induction actions generalizing state with
  | nil => trivial
  | cons action rest ih => exact ⟨always state action, ih _⟩

variable (machine) (report : State -> Action -> List Event)

def reports : State -> List Action -> List Event
  | _, [] => []
  | state, action :: rest => report state action ++ reports (machine.next state action) rest

/-- A run that ends in `state`, after its steps reported `past`. -/
inductive Trace : List Event -> State -> Prop
  | start {state : State} : machine.initial state -> Trace [] state
  | next {past : List Event} {state : State} {action : Action} :
      Trace past state -> machine.enabled state action ->
      Trace (past ++ report state action) (machine.next state action)

variable {machine report}

section

variable (trace : machine.Trace report past state)
include trace

theorem Trace.act (action : Action) (allowed : machine.enabled state action) :
  machine.Trace report (past ++ report state action) (machine.next state action) :=
  trace.next allowed

theorem Trace.run (actions : List Action) (admitted : machine.Admits state actions) :
  machine.Trace report (past ++ machine.reports report state actions) (machine.run state actions) := by
  induction actions generalizing past state with
  | nil =>
    rw [reports, append_nil]
    exact trace
  | cons action rest ih =>
    rw [reports, <- append_assoc]
    exact ih (trace.next admitted.1) admitted.2

theorem Trace.reachable : machine.Reachable state := by
  induction trace with
  | start isInitial => exact .start isInitial
  | next _ enabled ih => exact ih.next enabled

end

variable {relates : List Event -> State -> Prop}

theorem Trace.induct (initial : ∀ state, machine.initial state -> relates [] state)
  (step : ∀ past state action, relates past state -> machine.enabled state action ->
    relates (past ++ report state action) (machine.next state action)) (trace : machine.Trace report past state) :
  relates past state := by
  induction trace with
  | start isInitial => exact initial _ isInitial
  | next _ enabled ih => exact step _ _ _ ih enabled

/-- A property of histories that a report keeps exactly under a condition is
one of the runs whose steps meet it, and of no other. -/
theorem reports_iff {good : List Event -> Prop} (earlier : ∀ first second, good (first ++ second) -> good first)
  (kept : ∀ past state action, relates past state -> machine.enabled state action ->
    relates (past ++ report state action) (machine.next state action))
  (step : ∀ past state action, relates past state -> machine.enabled state action -> good past ->
    (good (past ++ report state action) ↔ condition state action)) (actions : List Action)
  (admitted : machine.Admits state actions) (related : relates past state) (goodNow : good past) :
  good (past ++ machine.reports report state actions) ↔ (machine.guarded condition).Admits state actions := by
  induction actions generalizing past state with
  | nil =>
    rw [reports, append_nil]
    exact iff_of_true goodNow trivial
  | cons action rest ih =>
    rw [reports, <- append_assoc]
    have onward := step past state action related admitted.1 goodNow
    have ahead := kept past state action related admitted.1
    constructor
    · intro goodLater
      have goodNext := earlier _ _ goodLater
      exact ⟨onward.mp goodNext, (ih admitted.2 ahead goodNext).mp goodLater⟩
    · rintro ⟨meets, later⟩
      exact (ih admitted.2 ahead (onward.mpr meets)).mpr later

end Machine
end BananaChat.Foundation
