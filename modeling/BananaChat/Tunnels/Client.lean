import BananaChat.Foundation.Sockets
import BananaChat.Tunnels.WebSocket

namespace BananaChat.Tunnels.WebSocket

open Foundation List Reader

/-!
# What the worker's client reads

It reads ahead: what a read gives beyond what was asked for stays in a buffer.
-/

structure Link where
  buffer : List UInt8
  socket : Socket

def Link.bytes (link : Link) : List UInt8 := link.buffer ++ link.socket.bytes

abbrev LinkReader (Value : Type) := StateT Link (Except Halt) Value

/-- `_exact` of the worker's client. -/
def ahead (size : ℕ) (link : Link) : Except Halt (List UInt8 × Link) :=
  if size <= link.buffer.length then .ok (link.buffer.take size, ⟨link.buffer.drop size, link.socket⟩)
  else
    match _taken : link.socket.recv 65536 with
    | none => .error .starved
    | some (chunk, left) => ahead size ⟨link.buffer ++ chunk, left⟩
termination_by link.socket.bytes.length
decreasing_by
  rcases Socket.recv_some (by decide) _taken with ⟨split, some, _⟩
  rw [split, length_append]
  omega

def aheadLength (short : UInt8) : LinkReader ℕ :=
  if short = 126 then do return ofBigEndian (<- ahead 2)
  else if short = 127 then do return ofBigEndian (<- ahead 8)
  else return short.toNat

/-- `clientFrame`, read ahead. -/
def aheadFrame : LinkReader Frame := do
  let head <- ahead 2
  let first := head.getD 0 0
  let second := head.getD 1 0
  if second &&& 0x80 ≠ 0 then throw (.broken "the server masked a frame")
  else do
    let length <- aheadLength (second &&& 0x7F)
    if maxMessage < length then throw (.broken "frame too large")
    else do
      let payload <- ahead length
      return ⟨decide (first &&& 0x80 ≠ 0), first &&& 0x0F, payload⟩

def aheadFrames : ℕ -> LinkReader (List Frame)
  | 0 => return []
  | count + 1 => do return (<- aheadFrame) :: (<- aheadFrames count)

variable {Value Result : Type} {detailed : LinkReader Value} {reader : Reader Value}

/-- What is read from the bytes at once is read from the link, however they come. -/
def Follows (detailed : LinkReader Value) (reader : Reader Value) : Prop :=
  ∀ link value rest, reader link.bytes = .ok (value, rest) -> ∃ left, detailed link = .ok (value, left) /\ left.bytes = rest

theorem Follows.bind {next : Value -> LinkReader Result} {readerNext : Value -> Reader Result} (follows : Follows detailed reader)
  (followsNext : ∀ value, Follows (next value) (readerNext value)) : Follows (detailed >>= next) (reader >>= readerNext) := by
  intro link result rest isRead
  rcases bind_eq_ok isRead with ⟨value, middle, first, later⟩
  rcases follows link value middle first with ⟨left, found, rfl⟩
  change ∃ last, (detailed link >>= fun found => next found.1 found.2) = _ /\ _
  rw [found]
  exact followsNext value left result rest later

theorem Follows.ite {condition : Prop} [Decidable condition] {second : LinkReader Value} {other : Reader Value}
  (follows : Follows detailed reader) (followsOther : Follows second other) :
  Follows (if condition then detailed else second) (if condition then reader else other) := by
  split
  · exact follows
  · exact followsOther

theorem follows_pure (value : Value) : Follows (pure value) (pure value) := by
  intro link _ _ isRead
  cases isRead
  exact ⟨link, rfl, rfl⟩

theorem follows_broken (message : String) : Follows (throw (.broken message)) (broken message : Reader Value) := by
  intro _ _ _ isRead
  cases isRead

theorem ahead_follows (size : ℕ) : Follows (ahead size) (exact size) := by
  intro link _ _ isRead
  fun_induction ahead size link with
  | case1 link enough =>
    rw [Link.bytes, <- take_append_drop size link.buffer, append_assoc, exact_append (length_take_of_le enough)] at isRead
    cases isRead
    exact ⟨_, rfl, rfl⟩
  | case2 link short nothing =>
    rw [Link.bytes, Socket.recv_none nothing, append_nil, exact, if_neg short] at isRead
    cases isRead
  | case3 link short chunk left taken ih =>
    apply ih
    rw [<- isRead, Link.bytes, Link.bytes, (Socket.recv_some (by decide) taken).1, append_assoc]

theorem aheadFrame_follows : Follows aheadFrame clientFrame := by
  refine (ahead_follows 2).bind fun head => Follows.ite (follows_broken _) (Follows.bind ?_ fun length => ?_)
  · refine Follows.ite ?_ (Follows.ite ?_ (follows_pure _))
    · exact (ahead_follows 2).bind fun bytes => follows_pure _
    · exact (ahead_follows 8).bind fun bytes => follows_pure _
  · exact Follows.ite (follows_broken _) ((ahead_follows length).bind fun payload => follows_pure _)

theorem aheadFrames_sends {sends : List Sent} (fine : ∀ sent ∈ sends, sent.opcode < 16 /\ sent.payload.length <= maxMessage)
  {link : Link} {rest : List UInt8} (arrive : link.bytes = sends.flatMap Sent.wire ++ rest) :
  ∃ left, aheadFrames sends.length link = .ok (sends.map (fun sent => ⟨true, sent.opcode, sent.payload⟩), left) /\
    left.bytes = rest := by
  induction sends generalizing link with
  | nil => exact ⟨link, rfl, arrive⟩
  | cons sent later ih =>
    rw [forall_mem_cons] at fine
    rw [flatMap_cons, append_assoc] at arrive
    rcases aheadFrame_follows link _ _ (arrive ▸ clientFrame_wire fine.1.1 fine.1.2 _) with ⟨middle, found, remains⟩
    rcases ih fine.2 remains with ⟨left, others, last⟩
    refine ⟨left, ?_, last⟩
    change (aheadFrame link >>= fun found => aheadFrames later.length found.2 >>= fun more => _) = _
    rw [found]
    change (aheadFrames later.length middle >>= _) = _
    rw [others]
    rfl

/-- A turn of the loop of `receive` with the frame it read. Unlike the server, it lets a message begin inside another one. -/
def Pending.take (pending : Pending) (frame : Frame) : Turn :=
  if frame.opcode = ping then .answer pending frame.payload
  else if frame.opcode = pong then .more pending
  else if frame.opcode = close then .failed "closed by the server"
  else
    match (Kind.of frame.opcode).or (if frame.opcode = continuation then pending.kind else Option.none) with
    | some kind => pending.extend kind frame.fin frame.payload
    | Option.none => .failed "unexpected frame"

/-- What calls of `receive` return one after another, and the pings that they answer. -/
def clientTurns : Pending -> List Frame -> Except String (List Message × List (List UInt8))
  | _, [] => .ok ([], [])
  | pending, frame :: later =>
    match pending.take frame with
    | .more next => clientTurns next later
    | .answer next payload => (clientTurns next later).map fun found => (found.1, payload :: found.2)
    | .accepted message => (clientTurns .none later).map fun found => (message :: found.1, found.2)
    | .failed reason => .error reason

def Sent.Fine (sent : Sent) : Prop := (sent.opcode = ping \/ sent.opcode = pong \/ ∃ kind : Kind, sent.opcode = kind.opcode) /\
  sent.payload.length <= maxMessage

def pings (sends : List Sent) : List (List UInt8) := (sends.filter (·.opcode = ping)).map Sent.payload

theorem clientTurns_sends {sends : List Sent} (fine : ∀ sent ∈ sends, sent.Fine) :
  clientTurns .none (sends.map fun sent => ⟨true, sent.opcode, sent.payload⟩) = .ok (sends.filterMap Sent.message, pings sends) := by
  induction sends with
  | nil => rfl
  | cons sent later ih =>
    rw [forall_mem_cons] at fine
    rcases sent with ⟨opcode, payload⟩
    rcases fine.1 with ⟨isPing | isPong | ⟨kind, isKind⟩, small⟩
    · cases isPing
      change (clientTurns .none _).map _ = _
      rw [ih fine.2]
      rfl
    · cases isPong
      exact ih fine.2
    · have read : Pending.none.take ⟨true, opcode, payload⟩ = .accepted ⟨kind, payload⟩ := by
        cases isKind
        have fits : ¬ maxMessage < (Pending.none.message ++ payload).length := Nat.not_lt.mpr small
        have whole : Pending.none.extend kind true payload = .accepted ⟨kind, payload⟩ := by
          unfold Pending.extend
          rw [if_neg fits, if_pos rfl]
          rfl
        cases kind <;> exact whole
      rw [map_cons, clientTurns, read]
      dsimp only
      rw [ih fine.2]
      cases isKind
      cases kind <;> rfl

end BananaChat.Tunnels.WebSocket
