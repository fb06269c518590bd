import BananaChat.Tunnels.Received

namespace BananaChat.Tunnels.WebSocket

open Foundation List

/-!
# What the server decodes is what was sent

A masked message is cut into fragments in any way, each under a key of its own, with pings and pongs
before any of them.
-/

structure Control where
  asks : Bool
  payload : List UInt8
  mask : Mask
  short : payload.length <= 125

def Control.frame (control : Control) : Frame := ⟨true, if control.asks then ping else pong, control.payload⟩

def Control.wire (control : Control) : List UInt8 := control.frame.masked control.mask.val

def Control.answer (control : Control) : List UInt8 :=
  if control.asks then (Sent.mk pong control.payload).wire else []

theorem Control.allowed (control : Control) : control.frame.Allowed := by
  rcases control with ⟨asks, _, _, short⟩
  refine ⟨?_, Nat.le_trans short (by decide), fun _ => ⟨short, rfl⟩⟩
  change (if asks then ping else pong) < 16
  cases asks <;> decide

/-- A piece of a message, with the pings and pongs that come before it. -/
structure Fragment where
  controls : List Control
  piece : List UInt8
  mask : Mask
  fits : piece.length <= maxFrame

/-- A message as a client may send it. -/
structure MaskedMessage where
  kind : Kind
  fragments : List Fragment
  some : fragments ≠ []
  fits : (fragments.flatMap Fragment.piece).length <= maxMessage

def MaskedMessage.message (sent : MaskedMessage) : Message := ⟨sent.kind, sent.fragments.flatMap Fragment.piece⟩

def fragmentsWire : UInt8 -> List Fragment -> List UInt8
  | _, [] => []
  | opcode, fragment :: later =>
    fragment.controls.flatMap Control.wire ++
      ((Frame.mk later.isEmpty opcode fragment.piece).masked fragment.mask.val ++ fragmentsWire continuation later)

def MaskedMessage.wire (sent : MaskedMessage) : List UInt8 := fragmentsWire sent.kind.opcode sent.fragments

def answers (fragments : List Fragment) : List UInt8 := fragments.flatMap (·.controls.flatMap Control.answer)

theorem socketFrame_masked {sent : Frame} (allowed : sent.Allowed) (mask : Mask) {socket : Socket} {rest : List UInt8}
  (arrived : socket.bytes = sent.masked mask.val ++ rest) :
  ∃ left : Socket, socketFrame socket = .ok (sent, left) /\ left.bytes = rest := by
  apply socketFrame_refines.ok
  rw [arrived]
  exact frame_masked allowed mask.property rest

variable {connection : Connection} {rest : List UInt8}

theorem receiveFrom_controls (controls : List Control) {pending : Pending} (running : connection.closed = false)
  (arrived : connection.socket.bytes = controls.flatMap Control.wire ++ rest) :
  ∃ left : Socket, left.bytes = rest /\ receiveFrom pending connection =
      receiveFrom pending ⟨left, connection.written ++ controls.flatMap Control.answer, false⟩ := by
  induction controls generalizing connection with
  | nil =>
    refine ⟨connection.socket, arrived, ?_⟩
    rw [flatMap_nil, append_nil, <- running]
  | cons control later ih =>
    rw [flatMap_cons, append_assoc] at arrived
    rcases socketFrame_masked control.allowed control.mask arrived with ⟨left, isRead, stays⟩
    rcases control with ⟨asks, payload, _, _⟩
    cases asks with
    | true =>
      rcases @ih ⟨left, connection.written ++ (Sent.mk pong payload).wire, connection.closed⟩
        running stays with ⟨last, lastBytes, same⟩
      refine ⟨last, lastBytes, ?_⟩
      rw [flatMap_cons, <- append_assoc]
      exact (receiveFrom_answer isRead rfl running).trans same
    | false =>
      rcases @ih { connection with socket := left } running stays with ⟨last, lastBytes, same⟩
      refine ⟨last, lastBytes, ?_⟩
      rw [receiveFrom_more isRead rfl, same]
      rfl

theorem receiveFrom_fragments (fragments : List Fragment) (opcode : UInt8) {kind : Kind} {pending : Pending}
  {connection : Connection} {rest : List UInt8} (some : fragments ≠ [])
  (fits : (pending.message ++ fragments.flatMap Fragment.piece).length <= maxMessage)
  (continues : Bridge.Continues kind opcode pending) (running : connection.closed = false)
  (arrived : connection.socket.bytes = fragmentsWire opcode fragments ++ rest) :
  ∃ left : Socket, left.bytes = rest /\ receiveFrom pending connection =
      .ok (⟨kind, pending.message ++ fragments.flatMap Fragment.piece⟩,
        ⟨left, connection.written ++ answers fragments, false⟩) := by
  induction fragments generalizing opcode pending connection with
  | nil => exact absurd rfl some
  | cons fragment later ih =>
    unfold fragmentsWire at arrived
    rw [append_assoc] at arrived
    rcases receiveFrom_controls fragment.controls running arrived with ⟨middle, middleBytes, same⟩
    rw [append_assoc] at middleBytes
    rcases @socketFrame_masked _ (continues.allowed later.isEmpty fragment.fits) _ middle _ middleBytes with
      ⟨left, isRead, stays⟩
    rw [flatMap_cons, <- append_assoc] at fits ⊢
    have small : ¬ maxMessage < (pending.message ++ fragment.piece).length := by
      rw [length_append] at fits
      omega
    have absorbed := Bridge.absorb_data continues later.isEmpty fragment.piece
    unfold Pending.extend at absorbed
    rw [if_neg small] at absorbed
    rw [same]
    cases later with
    | nil =>
      refine ⟨left, stays, ?_⟩
      rw [receiveFrom_accepted isRead absorbed, flatMap_nil, append_nil]
      unfold answers
      rw [flatMap_singleton]
    | cons next others =>
      rcases @ih continuation ⟨pending.message ++ fragment.piece, .some kind⟩
        ⟨left, connection.written ++ fragment.controls.flatMap Control.answer, false⟩ (cons_ne_nil _ _) fits
        (.inr ⟨rfl, rfl⟩) rfl stays with ⟨last, lastBytes, received⟩
      refine ⟨last, lastBytes, ?_⟩
      have answered : answers (fragment :: next :: others) =
          fragment.controls.flatMap Control.answer ++ answers (next :: others) := flatMap_cons
      rw [receiveFrom_more isRead absorbed, received, answered, <- append_assoc connection.written]

theorem receive_message (sent : MaskedMessage) (running : connection.closed = false)
  (arrived : connection.socket.bytes = sent.wire ++ rest) :
  ∃ left : Socket, left.bytes = rest /\
    receive connection = .ok (sent.message, ⟨left, connection.written ++ answers sent.fragments, false⟩) :=
  @receiveFrom_fragments sent.fragments sent.kind.opcode sent.kind Pending.none connection rest sent.some sent.fits
    (.inl ⟨rfl, rfl⟩) running arrived

theorem receiveEach_error {count : ℕ} {halt : Halt} (halted : receive connection = .error halt) :
  receiveEach (count + 1) connection = .error halt := by
  unfold receiveEach
  rw [halted]
  rfl

theorem receiveEach_succ {count : ℕ} {middle last : Connection} {first : Message} {others : List Message}
  (received : receive connection = .ok (first, middle)) (more : receiveEach count middle = .ok (others, last)) :
  receiveEach (count + 1) connection = .ok (first :: others, last) := by
  unfold receiveEach
  rw [received]
  change (receiveEach count middle >>= fun others => _) = _
  rw [more]
  rfl

theorem receiveEach_messages (messages : List MaskedMessage) {connection : Connection} {rest : List UInt8}
  (running : connection.closed = false)
  (arrived : connection.socket.bytes = messages.flatMap MaskedMessage.wire ++ rest) :
  ∃ left : Socket, left.bytes = rest /\ receiveEach messages.length connection =
      .ok (messages.map MaskedMessage.message,
        ⟨left, connection.written ++ messages.flatMap (answers ·.fragments), false⟩) := by
  induction messages generalizing connection with
  | nil =>
    rcases connection with ⟨socket, _, _⟩
    cases running
    exact ⟨socket, arrived, by rw [flatMap_nil, append_nil]; rfl⟩
  | cons sent later ih =>
    rw [flatMap_cons, append_assoc] at arrived
    rcases receive_message sent running arrived with ⟨middle, middleBytes, received⟩
    rcases @ih ⟨middle, connection.written ++ answers sent.fragments, false⟩ rfl middleBytes with
      ⟨left, leftBytes, others⟩
    refine ⟨left, leftBytes, ?_⟩
    rw [length_cons, receiveEach_succ received others, map_cons, flatMap_cons, append_assoc]

namespace Client

/-- The most bytes of a binary message that one call of `_send` gets. -/
def chunkSize : ℕ := 65536

/-- `_send`, with the key it draws. -/
def send (sent : Sent) (mask : Mask) : Option (List UInt8) :=
  (xorIntegers sent.payload mask.val).map
    (fun masked => header (0x80 ||| sent.opcode) 0x80 sent.payload.length ++ mask.val ++ masked)

/-- What the program asks the client to send; it sends a pong when it receives a ping. -/
inductive Call
  | text (content : Text)
  | binary (payload : List UInt8)
  | answer (payload : List UInt8)

/-- The calls of `_send`: none for a text that has no bytes. -/
def Call.sends : Call -> List Sent
  | .text content =>
    match content.encode with
    | none => []
    | some encoded => [⟨Kind.text.opcode, encoded⟩]
  | .binary payload =>
    (range ((max 1 payload.length + chunkSize - 1) / chunkSize)).map
      (fun chunk => ⟨Kind.binary.opcode, (payload.drop (chunk * chunkSize)).take chunkSize⟩)
  | .answer payload => [⟨pong, payload⟩]

/-- The bytes of these calls of `_send`, one key for each. -/
def wire : (ℕ -> Mask) -> List Sent -> Option (List UInt8)
  | _, [] => some []
  | keys, sent :: later => do
      let first <- send sent (keys 0)
      let others <- wire (fun place => keys (place + 1)) later
      return first ++ others

def Call.Fits : Call -> Prop
  | .text content => ∀ encoded, content.encode = some encoded -> encoded.length <= maxFrame
  | .binary _ => True
  | .answer payload => payload.length <= 125

/-- The frame of a call of `_send`. -/
def frameOf (sent : Sent) : Frame := ⟨true, sent.opcode, sent.payload⟩

theorem send_eq (sent : Sent) (mask : Mask) : send sent mask = some ((frameOf sent).masked mask.val) := by
  unfold send
  rw [xorIntegers_eq mask.property]
  rfl

variable {bytes : List UInt8}

theorem wire_cons (keys : ℕ -> Mask) (sent : Sent) {later : List Sent}
  (others : wire (fun place => keys (place + 1)) later = some bytes) :
  wire keys (sent :: later) = some ((frameOf sent).masked (keys 0).val ++ bytes) := by
  unfold wire
  rw [send_eq, others]
  rfl

theorem wire_total (keys : ℕ -> Mask) (sends : List Sent) : ∃ bytes, wire keys sends = some bytes := by
  induction sends generalizing keys with
  | nil => exact ⟨[], rfl⟩
  | cons sent later ih =>
    rcases ih (fun place => keys (place + 1)) with ⟨_, others⟩
    exact ⟨_, wire_cons keys sent others⟩

inductive Small : Sent -> Prop
  | message (kind : Kind) {payload : List UInt8} (fits : payload.length <= maxFrame) : Small ⟨kind.opcode, payload⟩
  | pong {payload : List UInt8} (short : payload.length <= 125) : Small ⟨WebSocket.pong, payload⟩

theorem Call.small {call : Call} (fits : call.Fits) : ∀ sent ∈ call.sends, Small sent := by
  intro _ mem
  cases call with
  | text content =>
    unfold Call.sends at mem
    dsimp only at mem
    split at mem
    · cases mem
    · rename_i encoded isEncoded
      rw [mem_singleton.mp mem]
      exact Small.message .text (fits encoded isEncoded)
  | binary payload =>
    rcases mem_map.mp mem with ⟨_, _, rfl⟩
    refine Small.message .binary (Nat.le_trans (length_take_le _ _) (by decide))
  | answer payload =>
    rw [mem_singleton.mp mem]
    exact Small.pong fits

theorem receiveEach_pong {payload : List UInt8} (short : payload.length <= 125) (mask : Mask) (count : ℕ)
  (arrived : connection.socket.bytes = (frameOf ⟨pong, payload⟩).masked mask.val ++ rest) :
  ∃ left : Socket, left.bytes = rest /\
    receiveEach (count + 1) connection = receiveEach (count + 1) { connection with socket := left } := by
  let control : Control := ⟨false, payload, mask, short⟩
  rcases socketFrame_masked control.allowed mask arrived with ⟨left, isRead, stays⟩
  refine ⟨left, stays, ?_⟩
  have same : receive connection = receive { connection with socket := left } := receiveFrom_more isRead rfl
  unfold receiveEach
  rw [same]

theorem receive_sent (kind : Kind) {payload : List UInt8} (fits : payload.length <= maxFrame) (mask : Mask)
  (arrived : connection.socket.bytes = (frameOf ⟨kind.opcode, payload⟩).masked mask.val ++ rest) :
  ∃ left : Socket, left.bytes = rest /\
    receive connection = .ok (⟨kind, payload⟩, { connection with socket := left }) := by
  have started : Bridge.Continues kind kind.opcode Pending.none := .inl ⟨rfl, rfl⟩
  rcases socketFrame_masked (started.allowed true fits) mask arrived with ⟨left, isRead, stays⟩
  refine ⟨left, stays, receiveFrom_accepted isRead ?_⟩
  have small : ¬ maxMessage < (Pending.none.message ++ payload).length := by
    change ¬ 4 * 1024 * 1024 < payload.length
    replace fits : payload.length <= 1024 * 1024 := fits
    omega
  rw [Bridge.absorb_data started]
  unfold Pending.extend
  rw [if_neg small, if_pos rfl]
  rfl

theorem receiveEach_sends (sends : List Sent) (small : ∀ sent ∈ sends, Small sent) {keys : ℕ -> Mask}
  {bytes rest : List UInt8} (encoded : wire keys sends = some bytes) {connection : Connection}
  (arrived : connection.socket.bytes = bytes ++ rest) :
  ∃ after : Connection,
    receiveEach (sends.filterMap Sent.message).length connection = .ok (sends.filterMap Sent.message, after) := by
  induction sends generalizing keys bytes connection with
  | nil => exact ⟨connection, rfl⟩
  | cons sent later ih =>
    rcases wire_total (fun place => keys (place + 1)) later with ⟨_, othersEncoded⟩
    rw [wire_cons keys sent othersEncoded] at encoded
    cases encoded
    rw [append_assoc] at arrived
    have smallLater : ∀ other ∈ later, Small other :=
      fun other mem => small other (mem_cons_of_mem sent mem)
    cases small sent (.head _) with
    | message kind fits =>
      rename_i payload
      rcases receive_sent kind fits (keys 0) arrived with ⟨left, leftBytes, received⟩
      rcases @ih smallLater _ _ othersEncoded { connection with socket := left } leftBytes with
        ⟨after, more⟩
      have isMessage : Sent.message ⟨kind.opcode, payload⟩ = some ⟨kind, payload⟩ := by
        unfold Sent.message
        rw [Kind.of_opcode]
        rfl
      rw [filterMap_cons_some isMessage]
      exact ⟨after, receiveEach_succ received more⟩
    | pong short =>
      rw [filterMap_cons_none rfl]
      cases messages : (later.filterMap Sent.message).length with
      | zero =>
        rw [eq_nil_of_length_eq_zero messages]
        exact ⟨connection, rfl⟩
      | succ count =>
        rcases receiveEach_pong short (keys 0) count arrived with ⟨left, leftBytes, same⟩
        rcases @ih smallLater _ _ othersEncoded { connection with socket := left } leftBytes
          with ⟨after, more⟩
        rw [same, <- messages]
        exact ⟨after, more⟩

/-- A frame that announces more than `MAX_FRAME` bytes is refused, before its payload is read. -/
theorem socketFrame_large {sent : Sent} (isData : sent.opcode < 16) (large : maxFrame < sent.payload.length)
  (counted : sent.payload.length < 256 ^ 8) (mask : Mask) {socket : Socket}
  (arrived : socket.bytes = (frameOf sent).masked mask.val ++ rest) :
  socketFrame socket = .error (.broken "frame too large") := by
  apply socketFrame_refines.error
  rcases sent with ⟨opcode, payload⟩
  rcases firstByte true ⟨opcode.toNat, isData⟩ with ⟨reserved, _, _⟩
  rw [if_pos rfl, UInt8.ofNat_toNat] at reserved
  rcases header_read (0x80 ||| opcode) true counted with ⟨second, _, written, flagged, lengthRead⟩
  have isMasked : ¬ second &&& 0x80 = 0 := by
    rw [flagged]
    decide
  replace written : header (0x80 ||| opcode) 0x80 payload.length = _ := written
  rw [arrived]
  unfold frameOf Frame.masked frame
  rw [if_pos rfl]
  rw [written, append_assoc, append_assoc, append_assoc, Reader.bind_ok (@Reader.exact_append 2 [_, _] rfl _)]
  simp only [getD_cons_zero, getD_cons_succ]
  rw [if_neg (not_not.mpr reserved), if_neg isMasked, Reader.bind_ok (lengthRead _), if_pos large]
  rfl

theorem receive_large {content : Text} {encoded : List UInt8} (isEncoded : content.encode = some encoded)
  (large : maxFrame < encoded.length) (counted : encoded.length < 256 ^ 8) {keys : ℕ -> Mask}
  (sentBytes : wire keys (Call.text content).sends = some bytes) (arrived : connection.socket.bytes = bytes ++ rest) :
  receive connection = .error (.broken "frame too large") := by
  have sends : (Call.text content).sends = [⟨Kind.text.opcode, encoded⟩] := by
    unfold Call.sends
    dsimp only
    rw [isEncoded]
  rw [sends, wire_cons keys _ rfl, append_nil] at sentBytes
  cases sentBytes
  have isData : Kind.text.opcode < 16 := by decide
  exact receiveFrom_error (socketFrame_large isData large counted (keys 0) arrived)

end Client

def sentMessages (calls : List Client.Call) : List Message := (calls.flatMap Client.Call.sends).filterMap Sent.message

/--
However the stream is cut into reads: the server receives what the client's calls send if every text fits a
frame, and refuses a text that does not.
-/
theorem receive_decodes :
  (∀ (calls : List Client.Call) (keys : ℕ -> Mask) (socket : Socket) (bytes rest : List UInt8),
    (∀ call ∈ calls, call.Fits) -> Client.wire keys (calls.flatMap Client.Call.sends) = some bytes ->
    socket.bytes = bytes ++ rest ->
      ∃ after : Connection,
        receiveEach (sentMessages calls).length (Connection.opened socket) = .ok (sentMessages calls, after)) /\
  (∀ (content : Text) (keys : ℕ -> Mask) (socket : Socket) (encoded bytes rest : List UInt8),
    content.encode = some encoded -> maxFrame < encoded.length -> encoded.length < 2 ^ 64 ->
    Client.wire keys (Client.Call.text content).sends = some bytes -> socket.bytes = bytes ++ rest ->
      receive (Connection.opened socket) = .error (.broken "frame too large")) /\
  (∀ (messages : List MaskedMessage) (socket : Socket) (rest : List UInt8),
    socket.bytes = messages.flatMap MaskedMessage.wire ++ rest ->
      ∃ left : Socket, left.bytes = rest /\
        receiveEach messages.length (Connection.opened socket) =
          .ok (messages.map MaskedMessage.message,
            ⟨left, messages.flatMap (answers ·.fragments), false⟩)) /\
  ∀ (payload : List UInt8) (mask : Mask),
    xorIntegers payload mask.val = some (payload.mapIdx fun index byte => byte ^^^ mask.val.getD (index % 4) 0) /\
      (xorIntegers payload mask.val).bind (xorIntegers · mask.val) = some payload := by
  refine ⟨?_, ?_, ?_, ?_⟩
  · intro calls keys socket bytes rest fits encoded arrived
    have small : ∀ sent ∈ calls.flatMap Client.Call.sends, Client.Small sent := by
      intro sent mem
      rcases mem_flatMap.mp mem with ⟨call, isCall, isSent⟩
      exact Client.Call.small (fits call isCall) sent isSent
    exact Client.receiveEach_sends _ small encoded arrived
  · intro content keys socket encoded bytes rest isEncoded large counted sentBytes arrived
    exact Client.receive_large isEncoded large counted sentBytes arrived
  · intro messages socket rest arrived
    exact @receiveEach_messages messages (Connection.opened socket) rest rfl arrived
  · intro payload mask
    rw [xorIntegers_eq mask.property, <- xor_eq_mapIdx, Option.bind_some, xorIntegers_eq mask.property, xor_xor]
    exact ⟨rfl, rfl⟩

/-- A text, masked messages with a ping, and a mask, in reads of one and of three bytes. -/
theorem receive_decodes_greeting :
  (∃ after : Connection,
    receiveEach 2 (Connection.opened ⟨[⟨[0x81, 0x81, 1], by decide⟩, ⟨[2, 3, 4], by decide⟩, ⟨[105], by decide⟩,
      ⟨[0x82, 0x80, 1], by decide⟩, ⟨[2, 3, 4], by decide⟩]⟩) = .ok ([⟨.text, [104]⟩, ⟨.binary, []⟩], after)) /\
  (∃ left : Socket, left.bytes = [0] /\
    receiveEach 1 (Connection.opened ⟨[⟨[0x89], by decide⟩, ⟨[0x81, 5, 6], by decide⟩, ⟨[7, 8, 2], by decide⟩,
      ⟨[0x82, 0x80, 1], by decide⟩, ⟨[2, 3, 4, 0], by decide⟩]⟩) =
      .ok ([⟨.binary, []⟩], ⟨left, [0x8A, 1, 7], false⟩)) /\
  (xorIntegers [9, 9] [1, 2, 3, 4]).bind (xorIntegers · [1, 2, 3, 4]) = some [9, 9] := by
  have fits : ∀ call ∈ [Client.Call.text [.scalar 'h'], Client.Call.binary []], call.Fits := by
    intro call mem
    rcases mem_cons.mp mem with first | later
    · subst first
      intro encoded isEncoded
      cases isEncoded
      decide
    · rw [mem_singleton.mp later]
      trivial
  refine ⟨receive_decodes.1 [.text [.scalar 'h'], .binary []] (fun _ => ⟨[1, 2, 3, 4], rfl⟩) _ _ [] fits rfl rfl, ?_,
    (receive_decodes.2.2.2 [9, 9] ⟨[1, 2, 3, 4], rfl⟩).2⟩
  refine receive_decodes.2.2.1
    [⟨.binary, [⟨[⟨true, [7], ⟨[5, 6, 7, 8], rfl⟩, by decide⟩], [], ⟨[1, 2, 3, 4], rfl⟩, by decide⟩],
      cons_ne_nil _ _, by decide⟩] _ [0] ?_
  rfl

theorem header_ne_nil (first flag : UInt8) (length : ℕ) : header first flag length ≠ [] := by
  unfold header
  split
  · exact cons_ne_nil _ _
  · split
    · exact cons_ne_nil _ _
    · exact cons_ne_nil _ _

theorem large_text_lost {content : Text} {encoded : List UInt8} (isEncoded : content.encode = some encoded)
  (large : maxFrame < encoded.length) (counted : encoded.length < 256 ^ 8) (keys : ℕ -> Mask) :
  ∃ socket : Socket, Client.wire keys ([Client.Call.text content].flatMap Client.Call.sends) = some socket.bytes /\
      ∀ after, receiveEach (sentMessages [.text content]).length (Connection.opened socket) ≠
        .ok (sentMessages [.text content], after) := by
  have sends : (Client.Call.text content).sends = [⟨Kind.text.opcode, encoded⟩] := by
    unfold Client.Call.sends
    dsimp only
    rw [isEncoded]
  have only : sentMessages [.text content] = [⟨.text, encoded⟩] := by
    unfold sentMessages
    rw [flatMap_cons, flatMap_nil, sends]
    rfl
  let bytes := (Client.frameOf ⟨Kind.text.opcode, encoded⟩).masked (keys 0).val
  have sentBytes : Client.wire keys (Client.Call.text content).sends = some bytes := by
    rw [sends, Client.wire_cons _ _ rfl, append_nil]
  have some : bytes ≠ [] := fun nothing =>
    header_ne_nil _ _ _ (append_eq_nil_iff.mp (append_eq_nil_iff.mp nothing).1).1
  let connection : Connection := Connection.opened ⟨[⟨bytes, some⟩]⟩
  have whole : connection.socket.bytes = bytes := append_nil bytes
  have arrived : connection.socket.bytes = bytes ++ [] := rfl
  have failed : receiveEach 1 connection = .error (.broken "frame too large") :=
    receiveEach_error (Client.receive_large isEncoded large counted sentBytes arrived)
  refine ⟨connection.socket, ?_, fun after all => ?_⟩
  · rw [whole, flatMap_cons, flatMap_nil, append_nil]
    exact sentBytes
  · rw [only] at all
    cases failed.symm.trans all

def longText : Text := (replicate (maxFrame + 1) 'a').map CodePoint.scalar

theorem length_letters (count : ℕ) : (Text.encodeChars (replicate count 'a')).length = count := by
  unfold Text.encodeChars
  rw [length_flatMap, map_replicate, sum_replicate, String.length_utf8EncodeChar]
  exact Nat.mul_one count

/-- A text that the client sends whole is not received. -/
theorem long_text_refused :
  ¬ ∀ (calls : List Client.Call) (keys : ℕ -> Mask) (socket : Socket) (bytes rest : List UInt8),
    Client.wire keys (calls.flatMap Client.Call.sends) = some bytes -> socket.bytes = bytes ++ rest ->
      ∃ after : Connection,
        receiveEach (sentMessages calls).length (Connection.opened socket) = .ok (sentMessages calls, after) := by
  intro received
  have isEncoded : longText.encode = some _ := Text.encode_chars _
  have size := length_letters (maxFrame + 1)
  have large : maxFrame < (Text.encodeChars (replicate (maxFrame + 1) 'a')).length := by
    rw [size]
    exact Nat.lt_add_one maxFrame
  have counted : (Text.encodeChars (replicate (maxFrame + 1) 'a')).length < 256 ^ 8 := by
    rw [size]
    decide
  rcases large_text_lost isEncoded large counted (fun _ => ⟨[1, 2, 3, 4], rfl⟩) with ⟨socket, sentBytes, lost⟩
  rcases received _ _ socket socket.bytes [] sentBytes (append_nil _).symm with ⟨after, all⟩
  exact lost after all

end BananaChat.Tunnels.WebSocket
