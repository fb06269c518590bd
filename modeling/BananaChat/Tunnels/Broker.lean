import BananaChat.Foundation.Machine
import BananaChat.Foundation.Numbered

namespace BananaChat.Tunnels

open Foundation Function

/-!
# The pairing of the tunnel broker

Every connection has a thread of its own, which runs `Broker._handle`.
-/

inductive Role
  | worker
  | client
deriving DecidableEq

def Role.other : Role -> Role
  | .worker => .client
  | .client => .worker

@[simp] theorem Role.other_other (role : Role) : role.other.other = role := by
  cases role <;> rfl

theorem Role.other_ne (role : Role) : role.other ≠ role := by
  cases role <;> exact fun same => nomatch same

def maxPairs : ℕ := 64

def maxGreetings : ℕ := 2 * maxPairs

inductive Exit
  /-- The hello proved nothing. -/
  | unauthenticated
  | refused
  | timedOut
  | left
  | served
deriving DecidableEq

variable {Session : Type} [DecidableEq Session]

inductive Thread (Session : Type)
  | greeting
  /-- The hello was accepted. -/
  | arrived (role : Role) (session : Session)
  /-- In `ready.wait`. -/
  | waiting (role : Role) (session : Session)
  /-- `ready.wait` returned without its event. -/
  | expired (role : Role) (session : Session)
  /-- Counted as a pair with this connection; whether its event is set yet. -/
  | serving (role : Role) (session : Session) (peer : ℕ) (announced : Bool)
  | ended (exit : Exit)
deriving DecidableEq

/-- A connection: its thread, and whether its event `ready` is set. -/
structure Connection (Session : Type) where
  thread : Thread Session
  ready : Bool
deriving DecidableEq

abbrev Slot := Role -> Option ℕ

def Slot.empty : Slot := fun _ => none

/-- `not slot`. -/
def Slot.isEmpty (slot : Slot) : Bool := (slot .worker).isNone && (slot .client).isNone

structure Broker (Session : Type) where
  /-- Every connection so far.  A connection is named by its place. -/
  connections : List (Connection Session)
  waiting : Session -> Option Slot
  pairs : ℕ
  /-- Connections that still prove the key. -/
  greetings : ℕ

inductive Report (Session : Type)
  | authenticated (connection : ℕ) (role : Role) (session : Session)
  | refused (connection : ℕ)
  | timedOut (connection : ℕ)
  /-- The connection that arrived and the one that waited. -/
  | paired (role : Role) (session : Session) (connection peer : ℕ)

inductive Action (Session : Type)
  | accept
  /-- `_hello` returned, with a role and a session or without. -/
  | hello (connection : ℕ) (joined : Option (Role × Session))
  /-- The first block under the lock. -/
  | join (connection : ℕ)
  /-- `peer_ready.set()`. -/
  | announce (connection : ℕ)
  /-- `ready.wait` returned True. -/
  | wake (connection : ℕ)
  /-- `ready.wait` returned False. -/
  | expire (connection : ℕ)
  /-- The second block under the lock, after a time-out. -/
  | settle (connection : ℕ)
  /-- The splice of a pair ended and both sockets are closed. -/
  | finish (connection : ℕ)

namespace Broker

variable (broker : Broker Session)

def entry (session : Session) (role : Role) : Option ℕ := (broker.waiting session).bind (· role)

section

variable (connection : ℕ) (current : Connection Session)

def goTo (thread : Thread Session) : Broker Session :=
  { broker with connections := broker.connections.set connection { current with thread := thread } }

def accept : Option (Broker Session) :=
  if broker.greetings < maxGreetings then
    some { broker with connections := broker.connections ++ [⟨.greeting, false⟩], greetings := broker.greetings + 1 }
  else none

def hello (joined : Option (Role × Session)) :
  Option (Broker Session × List (Report Session)) :=
  match current.thread, joined with
  | .greeting, none =>
    some ({ broker.goTo connection current (.ended .unauthenticated) with greetings := broker.greetings - 1 }, [])
  | .greeting, some (role, session) =>
    some ({ broker.goTo connection current (.arrived role session) with greetings := broker.greetings - 1 },
      [.authenticated connection role session])
  | _, _ => none

end

def dropEmpty (waiting : Session -> Option Slot) (session : Session) (slot : Slot) : Session -> Option Slot :=
  if slot.isEmpty then update waiting session none else update waiting session (some slot)

section

variable (connection : ℕ) (current : Connection Session)

def join : Option (Broker Session × List (Report Session)) :=
  match current.thread with
  | .arrived role session =>
    -- `setdefault`
    let slot := (broker.waiting session).getD Slot.empty
    if (slot role).isSome \/ maxPairs <= broker.pairs then
      some ({ broker.goTo connection current (.ended .refused) with waiting := dropEmpty broker.waiting session slot },
        [.refused connection])
    else match slot role.other with
      | some peer =>
        some ({ broker.goTo connection current (.serving role session peer false) with
            waiting := update broker.waiting session none
            pairs := broker.pairs + 1 },
          [.paired role session connection peer])
      | none =>
        some ({ broker.goTo connection current (.waiting role session) with
            waiting := update broker.waiting session (some (update slot role (some connection))) },
          [])
  | _ => none

def announce : Option (Broker Session) :=
  match current.thread with
  | .serving role session peer false =>
    (broker.connections[peer]?).map fun partner =>
      { broker with
        connections := (broker.connections.set connection ⟨.serving role session peer true, current.ready⟩).set peer
          { partner with ready := true } }
  | _ => none

def wake : Option (Broker Session) :=
  match current.thread with
  | .waiting _ _ => if current.ready then some (broker.goTo connection current (.ended .left)) else none
  | _ => none

def expire : Option (Broker Session) :=
  match current.thread with
  | .waiting role session => if current.ready then none else some (broker.goTo connection current (.expired role session))
  | _ => none

def settle : Option (Broker Session × List (Report Session)) :=
  match current.thread with
  | .expired role session =>
    match broker.waiting session with
    | some slot =>
      if slot role = some connection then
        some ({ broker.goTo connection current (.ended .timedOut) with
            waiting := dropEmpty broker.waiting session (update slot role none) },
          [.timedOut connection])
      -- paired at the last moment: the other thread runs the session
      else some (broker.goTo connection current (.ended .left), [])
    | none => some (broker.goTo connection current (.ended .left), [])
  | _ => none

def finish : Option (Broker Session) :=
  match current.thread with
  | .serving _ _ _ true => some { broker.goTo connection current (.ended .served) with pairs := broker.pairs - 1 }
  | _ => none

end

def perform (action : Action Session) : Option (Broker Session × List (Report Session)) :=
  let silently := fun after : Option (Broker Session) => after.map (fun broker => (broker, []))
  match action with
  | .accept => silently broker.accept
  | .hello connection joined => (broker.connections[connection]?).bind (broker.hello connection · joined)
  | .join connection => (broker.connections[connection]?).bind (broker.join connection)
  | .announce connection => silently ((broker.connections[connection]?).bind (broker.announce connection))
  | .wake connection => silently ((broker.connections[connection]?).bind (broker.wake connection))
  | .expire connection => silently ((broker.connections[connection]?).bind (broker.expire connection))
  | .settle connection => (broker.connections[connection]?).bind (broker.settle connection)
  | .finish connection => silently ((broker.connections[connection]?).bind (broker.finish connection))

def start : Broker Session := ⟨[], fun _ => none, 0, 0⟩

end Broker

def machine (Session : Type) [DecidableEq Session] : Machine (Broker Session) (Action Session) where
  initial broker := broker = Broker.start
  enabled broker action := (broker.perform action).isSome
  next broker action := ((broker.perform action).map Prod.fst).getD broker

def reports (broker : Broker Session) (action : Action Session) : List (Report Session) :=
  ((broker.perform action).map Prod.snd).getD []

end BananaChat.Tunnels
