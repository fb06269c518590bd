import BananaChat.Foundation.Text
import BananaChat.Tunnels.Broker
import BananaChat.Tunnels.WebSocket

namespace BananaChat.Tunnels.Bridge

open Foundation Reader WebSocket Function

/-!
# A paired session: two bridges and the splice between them

Each side of a session is a `bridge`: a thread that reads the side's WebSocket and writes relay
frames, and a loop that reads relay frames and writes the WebSocket.
-/

/-- `tunnel_broker.MAX_FRAME`. -/
def maxRelayFrame : ℕ := 1024 * 1024

def spliceSize : ℕ := 65536

def data : UInt8 := 1

def control : UInt8 := 2

def closing : UInt8 := 3

structure RelayFrame where
  kind : UInt8
  payload : List UInt8

/-- The bytes of `send_frame`. -/
def RelayFrame.wire (relayed : RelayFrame) : List UInt8 :=
  (relayed.kind :: bigEndian 4 relayed.payload.length) ++ relayed.payload

/-- The header and the payload that a turn of the loop of `bridge` reads. -/
def relayFrame : Reader RelayFrame := do
  let head <- exact 5
  let kind := head.getD 0 0
  let length := ofBigEndian (head.drop 1)
  if maxRelayFrame < length \/ ¬ (kind = data \/ kind = control \/ kind = closing) then
    broken "invalid relay frame"
  else do
    let payload <- exact length
    return ⟨kind, payload⟩

def relayOf (message : Message) : RelayFrame :=
  match message.kind with
  | .text => ⟨control, message.payload⟩
  | .binary => ⟨data, message.payload⟩

def closeFrame : RelayFrame := ⟨closing, []⟩

/-- What the loop of `bridge` sends on for a relay frame of the other side. -/
def forwarded (relayed : RelayFrame) : List Sent :=
  if relayed.kind = control then sendText (Text.encodeChars (Text.decodeReplace relayed.payload))
  else sendBinary relayed.payload

inductive Ending
  | invalid (reason : String)
  | closedByOtherSide
  /-- Everything that is not a relay frame. -/
  | interrupted

structure Side where
  /-- Bytes of the WebSocket's peer that are not read. -/
  incoming : List UInt8
  pending : Pending
  /-- Whether the thread `upstream` runs. -/
  reading : Bool
  /-- Relay bytes that the broker has not copied. -/
  sent : List UInt8
  /-- Relay bytes for this side that its bridge has not read. -/
  arriving : List UInt8
  /-- What was sent to the WebSocket's peer. -/
  written : List Sent
  ended : Option Ending

def Side.opened : Side := ⟨[], .none, true, [], [], [], none⟩

abbrev Session := Role -> Side

inductive Move
  | arrive (bytes : List UInt8)
  /-- A turn of `receive`, in `upstream`. -/
  | receive
  /-- The WebSocket's connection broke, or a send to the relay failed. -/
  | hangUp
  /-- The broker copies this side's bytes. -/
  | splice (size : ℕ)
  /-- A turn of the loop of `bridge`. -/
  | pass
  /-- The loop was idle for long. -/
  | keepAlive
  | interrupt

namespace Side

variable (side : Side)

/-- `upstream` is over: it says so to the other side. -/
def stopReading : Side := { side with reading := false, sent := side.sent ++ closeFrame.wire }

def write (sent : List Sent) : Side := { side with written := side.written ++ sent }

/-- The side after a turn of `receive`. -/
def turn : Turn -> Side
  | .more pending => { side with pending := pending }
  | .answer pending payload => { side.write [⟨pong, payload⟩] with pending := pending }
  | .accepted message => { side with pending := .none, sent := side.sent ++ (relayOf message).wire }
  | .failed _ => side.stopReading

/-- `upstream` up to the next frame. -/
def receive : Option (Side × Option Message) :=
  match frame side.incoming with
  | .error .starved => none
  | .error (.broken _) => some (side.stopReading, none)
  | .ok (found, rest) =>
    match side.pending.absorb found with
    | .accepted message => some ({ side with incoming := rest }.turn (.accepted message), some message)
    | other => some ({ side with incoming := rest }.turn other, none)

/-- The loop of `bridge` up to the next relay frame. -/
def pass : Option Side :=
  match relayFrame side.arriving with
  | .error .starved => none
  | .error (.broken reason) => some { side with ended := some (.invalid reason) }
  | .ok (relayed, rest) =>
    if relayed.kind = closing then some { side with arriving := rest, ended := some .closedByOtherSide }
    else some ({ side with arriving := rest }.write (forwarded relayed))

end Side

def Side.act (side : Side) : Move -> Option (Side × Option Message)
  | .arrive bytes => some ({ side with incoming := side.incoming ++ bytes }, none)
  | .receive => if side.reading then side.receive else none
  | .hangUp => if side.reading then some (side.stopReading, none) else none
  | .splice _ => none
  | .pass => side.pass.map (fun after => (after, none))
  | .keepAlive => some (side.write [⟨ping, [98, 99]⟩], none)
  | .interrupt => some ({ side with ended := some .interrupted }, none)

def splice (session : Session) (role : Role) (size : ℕ) : Session :=
  update
    (update session role { session role with sent := (session role).sent.drop size }) role.other
    { session role.other with arriving := (session role.other).arriving ++ (session role).sent.take size }

def step (session : Session) (role : Role) : Move -> Option (Session × Option Message)
  | .splice size =>
    if 0 < size /\ size <= spliceSize /\ size <= (session role).sent.length then some (splice session role size, none)
    else none
  | move =>
    if (session role).ended = none then
      ((session role).act move).map (fun outcome => (update session role outcome.1, outcome.2))
    else none

def machine : Machine Session (Role × Move) where
  initial := fun session => session = fun _ => Side.opened
  enabled := fun session action => (step session action.1 action.2).isSome
  next := fun session action => ((step session action.1 action.2).map Prod.fst).getD session

/-- The messages that `receive` returned, with the side. -/
def report (session : Session) (action : Role × Move) : List (Role × Message) :=
  ((step session action.1 action.2).bind Prod.snd).toList.map (fun message => (action.1, message))

/-- What `receive` accepted on a side, in order. -/
def acceptedBy (role : Role) (past : List (Role × Message)) : List Message := (past.filter (·.1 = role)).map Prod.snd

def messages (written : List Sent) : List Message := written.filterMap Sent.message

end BananaChat.Tunnels.Bridge
