import BananaChat.Foundation.Streams

namespace BananaChat.Tunnels.WebSocket

open Foundation Reader List UInt8

/-!
# The WebSocket of a tunnel

`frame` reads one frame from the bytes of the socket, `absorb` is one turn of the loop of
`WebSocket.receive`, `sentFrame` is what `WebSocket._send` writes at once.
-/

def maxFrame : ℕ := 1024 * 1024

def maxMessage : ℕ := 4 * 1024 * 1024

def continuation : UInt8 := 0x0

def close : UInt8 := 0x8

def ping : UInt8 := 0x9

def pong : UInt8 := 0xA

inductive Kind
  | text
  | binary
deriving DecidableEq

def Kind.opcode : Kind -> UInt8
  | .text => 0x1
  | .binary => 0x2

def Kind.of (opcode : UInt8) : Option Kind :=
  if opcode = Kind.text.opcode then some .text else if opcode = Kind.binary.opcode then some .binary else none

@[simp] theorem Kind.of_opcode (kind : Kind) : Kind.of kind.opcode = some kind := by
  cases kind <;> rfl

structure Message where
  kind : Kind
  payload : List UInt8
deriving DecidableEq

structure Frame where
  fin : Bool
  opcode : UInt8
  payload : List UInt8

def maskFrom (mask : List UInt8) : ℕ -> List UInt8 -> List UInt8
  | _, [] => []
  | place, byte :: rest => (byte ^^^ mask.getD (place % 4) 0) :: maskFrom mask (place + 1) rest

def xor (payload mask : List UInt8) : List UInt8 := maskFrom mask 0 payload

def lengthField (short : UInt8) : Reader ℕ :=
  if short = 126 then do
    let bytes <- exact 2
    return ofBigEndian bytes
  else if short = 127 then do
    let bytes <- exact 8
    return ofBigEndian bytes
  else
    return short.toNat

def frame : Reader Frame := do
  let head <- exact 2
  let first := head.getD 0 0
  let second := head.getD 1 0
  let fin := decide (first &&& 0x80 ≠ 0)
  let opcode := first &&& 0x0F
  if first &&& 0x70 ≠ 0 then
    broken "reserved bits set"
  else if second &&& 0x80 = 0 then
    broken "client frames must be masked"
  else do
    let length <- lengthField (second &&& 0x7F)
    if maxFrame < length then
      broken "frame too large"
    else if 0x8 <= opcode /\ (125 < length \/ fin = false) then
      broken "invalid control frame"
    else do
      let mask <- exact 4
      let payload <- exact length
      return ⟨fin, opcode, xor payload mask⟩

/-- What `receive` holds between two frames. -/
structure Pending where
  message : List UInt8
  kind : Option Kind

def Pending.none : Pending := ⟨[], Option.none⟩

/-- What a turn of the loop of `receive` comes to. -/
inductive Turn
  | more (pending : Pending)
  /-- A ping, which is answered. -/
  | answer (pending : Pending) (payload : List UInt8)
  | accepted (message : Message)
  | failed (reason : String)

def Pending.extend (pending : Pending) (kind : Kind) (fin : Bool) (payload : List UInt8) : Turn :=
  if maxMessage < (pending.message ++ payload).length then .failed "message too large"
  else if fin then .accepted ⟨kind, pending.message ++ payload⟩
  else .more ⟨pending.message ++ payload, some kind⟩

/-- A turn of the loop of `receive` with the frame it read. -/
def Pending.absorb (pending : Pending) (frame : Frame) : Turn :=
  if frame.opcode = ping then .answer pending frame.payload
  else if frame.opcode = pong then .more pending
  else if frame.opcode = close then .failed "closed by the peer"
  else
    match Kind.of frame.opcode with
    | some kind =>
      if pending.kind.isSome then .failed "a new message started inside a fragmented one"
      else pending.extend kind frame.fin frame.payload
    | Option.none =>
      if frame.opcode = continuation then
        match pending.kind with
        | some kind => pending.extend kind frame.fin frame.payload
        | Option.none => .failed "continuation without a message"
      else .failed "unknown opcode"

/-- What `_send` writes before a payload of this length: the first byte, and the length. -/
def header (first flag : UInt8) (length : ℕ) : List UInt8 :=
  if length < 126 then [first, flag ||| UInt8.ofNat length]
  else if length < 65536 then [first, flag ||| 126] ++ bigEndian 2 length
  else [first, flag ||| 127] ++ bigEndian 8 length

/-- One call of `_send`. -/
structure Sent where
  opcode : UInt8
  payload : List UInt8

/-- The bytes that `_send` writes at once. -/
def Sent.wire (sent : Sent) : List UInt8 := header (0x80 ||| sent.opcode) 0 sent.payload.length ++ sent.payload

/-- `send_binary`: a frame, and message, for each `MAX_FRAME` bytes. -/
def sendBinary (payload : List UInt8) : List Sent :=
  (range ((max 1 payload.length + maxFrame - 1) / maxFrame)).map
    (fun chunk => ⟨Kind.binary.opcode, (payload.drop (chunk * maxFrame)).take maxFrame⟩)

/-- `send_text`, for the bytes of its text. -/
def sendText (encoded : List UInt8) : List Sent := [⟨Kind.text.opcode, encoded⟩]

theorem sendBinary_fits {payload : List UInt8} (fits : payload.length <= maxFrame) :
  sendBinary payload = [⟨Kind.binary.opcode, payload⟩] := by
  have one : (max 1 payload.length + maxFrame - 1) / maxFrame = 1 := by
    have positive : 0 < maxFrame := by decide
    have bounded : max 1 payload.length <= maxFrame := Nat.max_le.mpr ⟨positive, fits⟩
    have large : 1 <= max 1 payload.length := Nat.le_max_left _ _
    rw [Nat.div_eq_iff positive]
    omega
  unfold sendBinary
  rw [one]
  change [Sent.mk Kind.binary.opcode ((payload.drop (0 * maxFrame)).take maxFrame)] = _
  rw [Nat.zero_mul, drop_zero, take_of_length_le fits]

def Sent.message (sent : Sent) : Option Message := (Kind.of sent.opcode).map (fun kind => ⟨kind, sent.payload⟩)

def Frame.masked (frame : Frame) (mask : List UInt8) : List UInt8 :=
  header ((if frame.fin then 0x80 else 0) ||| frame.opcode) 0x80 frame.payload.length ++ mask ++ xor frame.payload mask

theorem maskFrom_maskFrom (mask : List UInt8) (place : ℕ) (payload : List UInt8) :
  maskFrom mask place (maskFrom mask place payload) = payload := by
  induction payload generalizing place with
  | nil => rfl
  | cons byte rest ih =>
    change (byte ^^^ mask.getD (place % 4) 0 ^^^ mask.getD (place % 4) 0) ::
      maskFrom mask (place + 1) (maskFrom mask (place + 1) rest) = byte :: rest
    rw [ih, UInt8.xor_assoc, UInt8.xor_self, UInt8.xor_zero]

theorem xor_xor (payload mask : List UInt8) : xor (xor payload mask) mask = payload :=
  maskFrom_maskFrom mask 0 payload

theorem length_maskFrom (mask : List UInt8) (place : ℕ) (payload : List UInt8) :
  (maskFrom mask place payload).length = payload.length := by
  induction payload generalizing place with
  | nil => rfl
  | cons byte rest ih =>
    unfold maskFrom
    rw [length_cons, ih, length_cons]

theorem length_xor (payload mask : List UInt8) : (xor payload mask).length = payload.length :=
  length_maskFrom mask 0 payload

theorem shortField (masked : Bool) (length : Fin 126) :
  ((if masked then 0x80 else 0) ||| ofNat length.val) &&& (0x7F : UInt8) = ofNat length.val /\
    ((if masked then 0x80 else 0) ||| ofNat length.val) &&& (0x80 : UInt8) = (if masked then 0x80 else 0) /\
    ofNat length.val ≠ 126 /\ ofNat length.val ≠ 127 := by
  revert masked length
  decide +kernel

theorem header_read (first : UInt8) (masked : Bool) {length : ℕ} (bounded : length < 256 ^ 8) :
  ∃ second : UInt8, ∃ more : List UInt8, header first (if masked then 0x80 else 0) length = [first, second] ++ more /\
      second &&& 0x80 = (if masked then 0x80 else 0) /\
      ∀ rest, lengthField (second &&& 0x7F) (more ++ rest) = .ok (length, rest) := by
  unfold header
  by_cases short : length < 126
  · rcases shortField masked ⟨length, short⟩ with ⟨low, high, notMedium, notLong⟩
    rw [if_pos short]
    refine ⟨_, [], rfl, high, fun rest => ?_⟩
    unfold lengthField
    rw [low, if_neg notMedium, if_neg notLong, toNat_ofNat', Nat.mod_eq_of_lt (by omega)]
    rfl
  · rw [if_neg short]
    by_cases medium : length < 65536
    · rw [if_pos medium]
      refine ⟨_, bigEndian 2 length, rfl, by cases masked <;> rfl, fun rest => ?_⟩
      have low : ((if masked then 0x80 else 0) ||| 126) &&& (0x7F : UInt8) = 126 := by cases masked <;> rfl
      unfold lengthField
      rw [low, if_pos rfl, bind_ok (exact_append (length_bigEndian 2 length) rest),
        ofBigEndian_bigEndian (show length < 256 ^ 2 by omega)]
      rfl
    · rw [if_neg medium]
      refine ⟨_, bigEndian 8 length, rfl, by cases masked <;> rfl, fun rest => ?_⟩
      have low : ((if masked then 0x80 else 0) ||| 127) &&& (0x7F : UInt8) = 127 := by cases masked <;> rfl
      unfold lengthField
      rw [low, if_neg (by decide), if_pos rfl, bind_ok (exact_append (length_bigEndian 8 length) rest),
        ofBigEndian_bigEndian bounded]
      rfl

theorem firstByte (fin : Bool) (opcode : Fin 16) :
  let first : UInt8 := (if fin then 0x80 else 0) ||| ofNat opcode.val
  first &&& 0x70 = 0 /\ decide (first &&& 0x80 ≠ 0) = fin /\ first &&& 0x0F = ofNat opcode.val := by
  revert fin opcode
  decide

/-- The frames that the protocol allows a client to send to this side. -/
structure Frame.Allowed (frame : Frame) : Prop where
  opcode : frame.opcode < 16
  size : frame.payload.length <= maxFrame
  control : 0x8 <= frame.opcode -> frame.payload.length <= 125 /\ frame.fin

theorem frame_masked {sent : Frame} (allowed : sent.Allowed) {mask : List UInt8} (fourBytes : mask.length = 4)
  (rest : List UInt8) : frame (sent.masked mask ++ rest) = .ok (sent, rest) := by
  rcases sent with ⟨fin, opcode, payload⟩
  have small : opcode.toNat < 16 := allowed.opcode
  have bounded : payload.length < 256 ^ 8 := Nat.lt_of_le_of_lt allowed.size (by decide)
  have notControl : ¬ (0x8 <= opcode /\ (125 < payload.length \/ fin = false)) := by
    rintro ⟨control, wrong⟩
    rcases allowed.control control with ⟨short, whole⟩
    rcases wrong with long | broken
    · exact absurd short (Nat.not_le_of_lt long)
    · rw [broken] at whole
      cases whole
  rcases firstByte fin ⟨opcode.toNat, small⟩ with ⟨reserved, ends, same⟩
  rw [UInt8.ofNat_toNat] at reserved ends same
  rcases header_read ((if fin then 0x80 else 0) ||| opcode) true bounded with ⟨second, _, written, flagged, lengthRead⟩
  have isMasked : ¬ second &&& 0x80 = 0 := by
    rw [flagged]
    decide
  replace written : header ((if fin then 0x80 else 0) ||| opcode) 0x80 payload.length = _ := written
  unfold Frame.masked frame
  rw [written, append_assoc, append_assoc, append_assoc]
  rw [bind_ok (@exact_append 2 [_, _] rfl _)]
  simp only [getD_cons_zero, getD_cons_succ]
  rw [if_neg (not_not.mpr reserved), if_neg isMasked, bind_ok (lengthRead _), if_neg (Nat.not_lt.mpr allowed.size),
    same, ends, if_neg notControl, bind_ok (exact_append fourBytes _), bind_ok (exact_append (length_xor payload mask) _),
    xor_xor]
  rfl

/-- `_frame` of the worker's client: the server does not mask. -/
def clientFrame : Reader Frame := do
  let head <- exact 2
  let first := head.getD 0 0
  let second := head.getD 1 0
  if second &&& 0x80 ≠ 0 then
    broken "the server masked a frame"
  else do
    let length <- lengthField (second &&& 0x7F)
    if maxMessage < length then
      broken "frame too large"
    else do
      let payload <- exact length
      return ⟨decide (first &&& 0x80 ≠ 0), first &&& 0x0F, payload⟩

/-- The worker's client reads what `_send` wrote, as one final frame. -/
theorem clientFrame_wire {sent : Sent} (known : sent.opcode < 16) (size : sent.payload.length <= maxMessage)
  (rest : List UInt8) : clientFrame (sent.wire ++ rest) = .ok (⟨true, sent.opcode, sent.payload⟩, rest) := by
  rcases sent with ⟨opcode, payload⟩
  have bounded : payload.length < 256 ^ 8 := Nat.lt_of_le_of_lt size (by decide)
  rcases firstByte true ⟨opcode.toNat, known⟩ with ⟨_, ends, same⟩
  rw [UInt8.ofNat_toNat] at ends same
  rw [if_pos rfl] at ends same
  rcases header_read (0x80 ||| opcode) false bounded with ⟨second, _, written, flagged, lengthRead⟩
  have notMasked : ¬ second &&& 0x80 ≠ 0 := by
    rw [flagged]
    decide
  replace written : header (0x80 ||| opcode) 0 payload.length = _ := written
  unfold Sent.wire clientFrame
  rw [written, append_assoc, append_assoc, bind_ok (@exact_append 2 [_, _] rfl _)]
  simp only [getD_cons_zero, getD_cons_succ]
  rw [if_neg notMasked, bind_ok (lengthRead _), if_neg (Nat.not_lt.mpr size), bind_ok (exact_append rfl rest), same, ends]
  rfl

end BananaChat.Tunnels.WebSocket
