import BananaChat.Foundation.Sockets
import BananaChat.Tunnels.Delivered
import BananaChat.Tunnels.Masking

namespace BananaChat.Tunnels.WebSocket

open Foundation

/-!
# The server's end of a WebSocket

`socketFrame` reads a frame with the reads of the socket, `receive` is the whole loop of
`WebSocket.receive`, with its answers to pings.
-/

/-- As many bytes as `_exact` asks for at a time. -/
def readSize : ℕ := 65536

instance : NeZero readSize := ⟨by decide⟩

/-- `_exact`. -/
def exactly (size : ℕ) : SocketReader (List UInt8) := SocketReader.gather readSize size []

def socketLength (short : UInt8) : SocketReader ℕ :=
  if short = 126 then do
    let bytes <- exactly 2
    return ofBigEndian bytes
  else if short = 127 then do
    let bytes <- exactly 8
    return ofBigEndian bytes
  else
    return short.toNat

/-- The payload without its mask; the integers of `_xor` may overflow. -/
def unmasked (fin : Bool) (opcode : UInt8) (payload mask : List UInt8) : SocketReader Frame :=
  match xorIntegers payload mask with
  | some bytes => return ⟨fin, opcode, bytes⟩
  | none => SocketReader.broken "int too big to convert"

/-- `_frame`, on the socket. -/
def socketFrame : SocketReader Frame := do
  let head <- exactly 2
  let first := head.getD 0 0
  let second := head.getD 1 0
  let fin := decide (first &&& 0x80 ≠ 0)
  let opcode := first &&& 0x0F
  if first &&& 0x70 ≠ 0 then
    SocketReader.broken "reserved bits set"
  else if second &&& 0x80 = 0 then
    SocketReader.broken "client frames must be masked"
  else do
    let length <- socketLength (second &&& 0x7F)
    if maxFrame < length then
      SocketReader.broken "frame too large"
    else if 0x8 <= opcode /\ (125 < length \/ fin = false) then
      SocketReader.broken "invalid control frame"
    else do
      let mask <- exactly 4
      let payload <- exactly length
      unmasked fin opcode payload mask

open SocketReader

theorem exactly_refines (size : ℕ) : Refines (exactly size) (Reader.exact size) := gather_refines readSize size

theorem socketLength_refines (short : UInt8) : Refines (socketLength short) (lengthField short) := by
  refine Refines.ite ?_ (Refines.ite ?_ (refines_pure _))
  · exact (exactly_refines 2).bind (fun bytes _ => refines_pure _)
  · exact (exactly_refines 8).bind (fun bytes _ => refines_pure _)

theorem unmasked_refines (fin : Bool) (opcode : UInt8) (payload : List UInt8) {mask : List UInt8}
  (fourBytes : mask.length = 4) : Refines (unmasked fin opcode payload mask) (pure ⟨fin, opcode, xor payload mask⟩) := by
  unfold unmasked
  rw [xorIntegers_eq fourBytes]
  exact refines_pure _

theorem socketFrame_refines : Refines socketFrame frame := by
  refine (exactly_refines 2).bind (fun head _ => ?_)
  refine Refines.ite (refines_broken _) (Refines.ite (refines_broken _) ?_)
  refine (socketLength_refines _).bind (fun length _ => ?_)
  refine Refines.ite (refines_broken _) (Refines.ite (refines_broken _) ?_)
  refine (exactly_refines 4).bind (fun mask masked => ?_)
  refine (exactly_refines length).bind (fun payload _ => ?_)
  rcases masked with ⟨_, _, isRead⟩
  exact unmasked_refines _ _ payload (Reader.exact_split isRead).2

open Reader in
theorem consumes_lengthField (short : UInt8) : Consumes (lengthField short) := by
  refine Consumes.ite ?_ (Consumes.ite ?_ (consumes_pure _))
  · exact (consumes_exact 2).bind (fun bytes => consumes_pure _)
  · exact (consumes_exact 8).bind (fun bytes => consumes_pure _)

open Reader in
theorem frame_shrinks {stream rest : List UInt8} {found : Frame} (isRead : frame stream = .ok (found, rest)) :
  rest.length < stream.length := by
  rcases bind_eq_ok isRead with ⟨_, middle, headRead, later⟩
  rcases exact_split headRead with ⟨split, two⟩
  have shorter : rest.length <= middle.length := by
    refine Consumes.ite (consumes_broken _) (Consumes.ite (consumes_broken _) ?_) middle found rest later
    refine (consumes_lengthField _).bind (fun length => ?_)
    refine Consumes.ite (consumes_broken _) (Consumes.ite (consumes_broken _) ?_)
    refine (consumes_exact 4).bind (fun mask => ?_)
    exact (consumes_exact length).bind (fun payload => consumes_pure _)
  rw [split, List.length_append, two]
  omega

theorem socketFrame_shrinks {socket left : Socket} {found : Frame} (isRead : socketFrame socket = .ok (found, left)) :
  left.bytes.length < socket.bytes.length := by
  have same := socketFrame_refines socket
  rw [isRead] at same
  exact frame_shrinks same.symm

/-- A `WebSocket` of the server: its socket, what it wrote to it, and whether it closed. -/
structure Connection where
  socket : Socket
  written : List UInt8
  closed : Bool

/-- A new `WebSocket`. -/
def Connection.opened (socket : Socket) : Connection := ⟨socket, [], false⟩

def Connection.send (connection : Connection) (sent : Sent) : Except Halt Connection :=
  if connection.closed /\ sent.opcode ≠ close then .error (.broken "already closed")
  else .ok { connection with written := connection.written ++ sent.wire }

theorem Connection.send_socket {connection after : Connection} {sent : Sent} (done : connection.send sent = .ok after) :
  after.socket = connection.socket := by
  unfold Connection.send at done
  split at done
  · cases done
  · cases done
    rfl

/-- The loop of `receive`, with the fragments it holds. -/
def receiveFrom (pending : Pending) (connection : Connection) : Except Halt (Message × Connection) :=
  match _isRead : socketFrame connection.socket with
  | .error halt => .error halt
  | .ok (found, left) =>
    match pending.absorb found with
    | .more next => receiveFrom next { connection with socket := left }
    | .answer next payload =>
      match _done : Connection.send { connection with socket := left } ⟨pong, payload⟩ with
      | .error halt => .error halt
      | .ok answered => receiveFrom next answered
    | .accepted message => .ok (message, { connection with socket := left })
    | .failed reason => .error (.broken reason)
termination_by connection.socket.bytes.length
decreasing_by
  · exact socketFrame_shrinks _isRead
  · rw [Connection.send_socket _done]
    exact socketFrame_shrinks _isRead

def receive (connection : Connection) : Except Halt (Message × Connection) := receiveFrom Pending.none connection

/-- `receive`, that many times. -/
def receiveEach : ℕ -> Connection -> Except Halt (List Message × Connection)
  | 0, connection => .ok ([], connection)
  | count + 1, connection => do
      let first <- receive connection
      let others <- receiveEach count first.2
      return (first.1 :: others.1, others.2)

section Turns

variable {pending next : Pending} {connection : Connection} {found : Frame} {left : Socket}

section

variable (isRead : socketFrame connection.socket = .ok (found, left))
include isRead

theorem receiveFrom_more (absorbed : pending.absorb found = .more next) :
  receiveFrom pending connection = receiveFrom next { connection with socket := left } := by
  rw [receiveFrom]
  split
  · rename_i halted
    rw [isRead] at halted
    cases halted
  · rename_i again
    rw [isRead] at again
    cases again
    rw [absorbed]

theorem receiveFrom_answer {payload : List UInt8}
  (absorbed : pending.absorb found = .answer next payload) (running : connection.closed = false) :
  receiveFrom pending connection =
    receiveFrom next ⟨left, connection.written ++ (Sent.mk pong payload).wire, connection.closed⟩ := by
  have done : Connection.send { connection with socket := left } ⟨pong, payload⟩ =
      .ok ⟨left, connection.written ++ (Sent.mk pong payload).wire, connection.closed⟩ := by
    unfold Connection.send
    rw [if_neg (by rw [running]; rintro ⟨clash, _⟩; cases clash)]
  rw [receiveFrom]
  split
  · rename_i halted
    rw [isRead] at halted
    cases halted
  · rename_i again
    rw [isRead] at again
    cases again
    rw [absorbed]
    dsimp only
    split
    · rename_i halted
      rw [done] at halted
      cases halted
    · rename_i same
      rw [done] at same
      cases same
      rfl

theorem receiveFrom_accepted {message : Message} (absorbed : pending.absorb found = .accepted message) :
  receiveFrom pending connection = .ok (message, { connection with socket := left }) := by
  rw [receiveFrom]
  split
  · rename_i halted
    rw [isRead] at halted
    cases halted
  · rename_i again
    rw [isRead] at again
    cases again
    rw [absorbed]

end

theorem receiveFrom_error {halt : Halt} (halted : socketFrame connection.socket = .error halt) :
  receiveFrom pending connection = .error halt := by
  rw [receiveFrom]
  split
  · rename_i again
    rw [halted] at again
    cases again
    rfl
  · rename_i isRead
    rw [halted] at isRead
    cases isRead

end Turns

end BananaChat.Tunnels.WebSocket
