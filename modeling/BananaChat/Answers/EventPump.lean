import Mathlib.Data.List.Chain
import BananaChat.Foundation.Machine
import BananaChat.Foundation.Text

namespace BananaChat.Answers

open Foundation

/-!
# The event pump of a streamed answer

The work pushes events from a thread of its own, the response drains them. Both use one queue of
groups.
-/

/-- The events of `inference.generate`; what a start and an end carry stays as it is. -/
inductive StreamEvent (Start Outcome : Type)
  | queued (position : ℕ)
  | started (start : Start)
  | delta (text : Text) (thinking : Bool)
  | finished (outcome : Outcome)
deriving DecidableEq

variable {Start Outcome : Type}

def continues : StreamEvent Start Outcome -> StreamEvent Start Outcome -> Bool
  | .delta _ thinking, .delta _ next => thinking = next
  | .queued _, .queued _ => true
  | _, _ => false

def StreamEvent.text : StreamEvent Start Outcome -> Text
  | .delta text _ => text
  | _ => []

/-- Unread events that the reader gets as one. -/
structure Group (Event : Type) where
  first : Event
  rest : List Event

def joined (group : Group (StreamEvent Start Outcome)) : StreamEvent Start Outcome :=
  match group.first with
  | .delta text thinking => .delta (text ++ group.rest.flatMap StreamEvent.text) thinking
  | first => group.rest.getLast?.getD first

variable {Event Error : Type}

namespace Group

def events (group : Group Event) : List Event := group.first :: group.rest

def last (group : Group Event) : Event := group.rest.getLast?.getD group.first

def append (group : Group Event) (event : Event) : Group Event := ⟨group.first, group.rest ++ [event]⟩

theorem events_append (group : Group Event) (event : Event) : (group.append event).events = group.events ++ [event] := rfl

theorem last_eq (group : Group Event) : group.events.getLast? = some group.last := by
  unfold events last
  rw [List.getLast?_cons]

end Group

/-- `MAX_EVENTS`, `merge` and `join` of a pump. -/
structure PumpSettings (Event : Type) where
  maxEvents : ℕ
  merge : Option (Event -> Event -> Bool)
  join : Group Event -> Event

namespace PumpSettings

variable (settings : PumpSettings Event)

def merges (last event : Event) : Bool :=
  match settings.merge with
  | some merge => merge last event
  | none => false

def handed (group : Group Event) : Event :=
  match group.rest with
  | [] => group.first
  | _ :: _ => settings.join group

end PumpSettings

inductive Work
  | running
  /-- The source ended or raised; the reader is not told yet. -/
  | over
  | finished
deriving DecidableEq

inductive Response
  | reading
  /-- It took this group and yields it. -/
  | holding (group : ℕ)
  /-- `drain` returned or raised. -/
  | ended
  /-- In `close`. -/
  | leaving
  | closed
deriving DecidableEq

structure Pump (Event Error : Type) where
  /-- Every group so far, by reference. -/
  groups : List (Group Event)
  items : List ℕ
  work : Work
  error : Option Error
  drained : Bool
  cancelled : Bool
  reader : Response

def Pump.start : Pump Event Error := ⟨[], [], .running, none, false, false, .reading⟩

inductive PumpAction (Event Error : Type)
  | push (event : Event)
  | fail (error : Error)
  /-- The source has no more events. -/
  | exhaust
  /-- `_finished` is set. -/
  | finish
  /-- A turn of `drain` under the lock. -/
  | take
  | hand
  | disconnect
  /-- The end of `close`, after it waited for the work. -/
  | clear

inductive PumpReport (Event Error : Type)
  | produced (event : Event)
  | failed (error : Error)
  | handed (event : Event)
  | raised (error : Error)
  | returned
deriving DecidableEq

namespace Pump

variable (settings : PumpSettings Event) (pump : Pump Event Error)

def tail : Option (ℕ × Group Event) :=
  match pump.items.getLast? with
  | none => none
  | some place => (pump.groups[place]?).map (fun group => (place, group))

def insert (event : Event) : List (Group Event) × List ℕ :=
  match pump.tail with
  | some (place, group) =>
    if settings.merges group.last event then (pump.groups.set place (group.append event), pump.items)
    else (pump.groups ++ [⟨event, []⟩], pump.items ++ [pump.groups.length])
  | none => (pump.groups ++ [⟨event, []⟩], pump.items ++ [pump.groups.length])

/-- `_push`; a reader that is hopelessly behind gets its work cancelled. -/
def push (event : Event) : Pump Event Error :=
  let inserted := pump.insert settings event
  { pump with
    groups := inserted.1
    items := inserted.2
    cancelled := pump.cancelled || (settings.maxEvents < inserted.2.length) }

/-- A turn of `drain`: wait, take a group, or end. -/
def take : Option (Pump Event Error × List (PumpReport Event Error)) :=
  match pump.items with
  | place :: rest => some ({ pump with items := rest, reader := .holding place }, [])
  | [] =>
    if pump.work = .finished then
      some ({ pump with drained := true, error := none, reader := .ended }, match pump.error with
        | some error => [.raised error]
        | none => [.returned])
    else none

def step : PumpAction Event Error -> Option (Pump Event Error × List (PumpReport Event Error))
  | .push event => if pump.work = .running then some (pump.push settings event, [.produced event]) else none
  | .fail error =>
    if pump.work = .running then some ({ pump with work := .over, error := some error }, [.failed error]) else none
  | .exhaust => if pump.work = .running then some ({ pump with work := .over }, []) else none
  | .finish => if pump.work = .over then some ({ pump with work := .finished }, []) else none
  | .take => if pump.reader = .reading then pump.take else none
  | .hand =>
    match pump.reader with
    | .holding place =>
      (pump.groups[place]?).map (fun group => ({ pump with reader := .reading }, [.handed (settings.handed group)]))
    | _ => none
  | .disconnect =>
    if pump.reader = .reading \/ pump.reader = .ended then
      some ({ pump with cancelled := pump.cancelled || !pump.drained, reader := .leaving }, [])
    else none
  | .clear => if pump.reader = .leaving then some ({ pump with items := [], reader := .closed }, []) else none

end Pump

def pumpMachine (settings : PumpSettings Event) : Machine (Pump Event Error) (PumpAction Event Error) where
  initial := fun pump => pump = .start
  enabled := fun pump action => (pump.step settings action).isSome
  next := fun pump action => ((pump.step settings action).map Prod.fst).getD pump

def pumpReport (settings : PumpSettings Event) (pump : Pump Event Error) (action : PumpAction Event Error) :
    List (PumpReport Event Error) := ((pump.step settings action).map Prod.snd).getD []

def producedOf (past : List (PumpReport Event Error)) : List Event :=
  past.filterMap (fun report =>
    match report with
    | .produced event => some event
    | _ => none)

def drainedOf (past : List (PumpReport Event Error)) : List Event :=
  past.filterMap (fun report =>
    match report with
    | .handed event => some event
    | _ => none)

end BananaChat.Answers
