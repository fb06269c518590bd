import BananaChat.Foundation.Sockets
import BananaChat.Foundation.Text

namespace BananaChat.Tunnels.Socks

open Foundation List

/-!
# The handshake of the SOCKS proxy

`cmd_socks` reads a greeting and a request with one `recv` for each part; what the client sends may
be cut anywhere.
-/

/-- How `handle` ends: with a session and what is relayed, closed, or by an error that it does not catch. -/
inductive Ending (Stream : Type)
  | session (host : Text) (port : ℕ) (left : Stream)
  | closed
  | raised

def Ending.map {Stream Other : Type} (change : Stream -> Other) : Ending Stream -> Ending Other
  | .session host port left => .session host port (change left)
  | .closed => .closed
  | .raised => .raised

/-- `inet_ntoa` and `inet_ntop` of an address that has its length. -/
structure Inet where
  ntoa : List UInt8 -> Text
  ntop : List UInt8 -> Text

/-- `decode("ascii", "replace")`. -/
def decodeAscii (bytes : List UInt8) : Text :=
  bytes.map fun byte => .scalar (Char.ofNat (if byte.toNat < 128 then byte.toNat else 65533))

def recv (limit : ℕ) (socket : Socket) : List UInt8 × Socket := (socket.recv limit).getD ([], socket)

variable (inet : Inet)

section

variable {Stream : Type} (recv : ℕ -> Stream -> List UInt8 × Stream)

/-- A packed address; whether the error of one that is too short is caught differs. -/
def readPacked (size : ℕ) (text : List UInt8 -> Text) (caught : Bool) (stream : Stream) : Except (Ending Stream) (Text × Stream) :=
  let (packed, left) := recv size stream
  if packed.length = size then .ok (text packed, left) else .error (if caught then .closed else .raised)

/-- The host of a request, or how `handle` ends without one. -/
def readHost (kind : UInt8) (stream : Stream) : Except (Ending Stream) (Text × Stream) :=
  if kind = 1 then readPacked recv 4 inet.ntoa true stream
  else if kind = 3 then
    let (size, left) := recv 1 stream
    if size = [] then .error .closed
    else
      let (name, left) := recv (size.headD 0).toNat left
      .ok (decodeAscii name, left)
  else if kind = 4 then readPacked recv 16 inet.ntop false stream
  else .error .closed

def readPort (host : Text) (stream : Stream) : Ending Stream :=
  let (port, left) := recv 2 stream
  if port.length = 2 then .session host (256 * (port.getD 0 0).toNat + (port.getD 1 0).toNat) left else .raised

def readRequest (stream : Stream) : Ending Stream :=
  let (header, left) := recv 4 stream
  if header.length < 4 \/ header[1]? ≠ some 1 then .closed
  else
    match readHost inet recv (header.getD 3 0) left with
    | .error ending => ending
    | .ok (host, left) => readPort recv host left

end

/-- `handle`, where `sendall` succeeds. -/
def handle (socket : Socket) : Ending Socket :=
  let (greeting, left) := recv 262 socket
  if greeting.length < 2 \/ greeting.head? ≠ some 5 then .closed else readRequest inet recv left

inductive Address
  | ipv4 (packed : List UInt8) (whole : packed.length = 4)
  | name (bytes : List UInt8) (short : bytes.length < 256)
  | ipv6 (packed : List UInt8) (whole : packed.length = 16)

def Address.host : Address -> Text
  | .ipv4 packed _ => inet.ntoa packed
  | .name bytes _ => decodeAscii bytes
  | .ipv6 packed _ => inet.ntop packed

def Address.bytes : Address -> List UInt8
  | .ipv4 packed _ => 1 :: packed
  | .name bytes _ => 3 :: .ofNat bytes.length :: bytes
  | .ipv6 packed _ => 4 :: packed

structure Connect where
  methods : List UInt8
  few : methods.length < 256
  address : Address
  high : UInt8
  low : UInt8

def Connect.greeting (connect : Connect) : List UInt8 := 5 :: .ofNat connect.methods.length :: connect.methods

def Connect.request (connect : Connect) : List UInt8 := 5 :: 1 :: 0 :: connect.address.bytes ++ [connect.high, connect.low]

def Connect.port (connect : Connect) : ℕ := 256 * connect.high.toNat + connect.low.toNat

def WellFormed (stream : List UInt8) : Prop :=
  ∃ (connect : Connect) (rest : List UInt8), stream = connect.greeting ++ (connect.request ++ rest)

/-- The request of a well-formed stream leads to its session; every other stream is closed. -/
def Handled (socket : Socket) : Prop :=
  (∀ (connect : Connect) (rest : List UInt8), socket.bytes = connect.greeting ++ (connect.request ++ rest) ->
    (handle inet socket).map Socket.bytes = .session (connect.address.host inet) connect.port rest) /\
  (¬ WellFormed socket.bytes -> handle inet socket = .closed)

def Greets (stream : List UInt8) : Prop := 2 <= stream.length /\ stream.head? = some 5

def greetingLength (stream : List UInt8) : ℕ := 2 + (stream.getD 1 0).toNat

def addressParts (kind : UInt8) (stream : List UInt8) : List ℕ :=
  if kind = 1 then [4, 2] else if kind = 3 then [1, (stream.headD 0).toNat, 2] else if kind = 4 then [16, 2] else []

/-- Each part comes in one read, unless the stream ends before. -/
def Whole : List ℕ -> Socket -> Prop
  | [], _ => True
  | part :: parts, socket => (recv part socket).1 = socket.bytes.take part /\ Whole parts (recv part socket).2

structure InParts (socket : Socket) : Prop where
  greeting : (recv 262 socket).1 = socket.bytes.take (greetingLength socket.bytes)
  header : Whole [4] (recv 262 socket).2
  address : let request := (recv 262 socket).2
    request.bytes[1]? = some 1 ->
      Whole (addressParts (request.bytes.getD 3 0) (request.bytes.drop 4)) (recv 4 request).2

/-- A request that ends too early or says what is not supported; not every bad one is among these. -/
def Refused (request : List UInt8) : Prop :=
  request.length < 4 \/ request[1]? ≠ some 1 \/ request.getD 3 0 ∉ [1, 3, 4] \/
    request.getD 3 0 = 1 /\ (request.drop 4).length < 4 \/ request.getD 3 0 = 3 /\ request.drop 4 = []

variable {socket : Socket}

theorem bytes_recv (limit : ℕ) (socket : Socket) : (recv limit socket).1 ++ (recv limit socket).2.bytes = socket.bytes := by
  rcases socket with ⟨pieces⟩
  cases pieces with
  | nil => rfl
  | cons piece later =>
    unfold recv Socket.recv
    dsimp only
    split
    · change take limit piece.val ++ (drop limit piece.val ++ _) = _
      rw [<- append_assoc, take_append_drop]
      rfl
    · rfl

theorem left_bytes {limit part : ℕ} (whole : (recv limit socket).1 = socket.bytes.take part) :
  (recv limit socket).2.bytes = socket.bytes.drop part := by
  have both := bytes_recv limit socket
  rw [whole] at both
  exact append_cancel_left (both.trans (take_append_drop part socket.bytes).symm)

theorem splitAt_bytes {part : ℕ} (whole : (recv part socket).1 = socket.bytes.take part) :
  splitAt part socket.bytes = ((recv part socket).1, (recv part socket).2.bytes) := by
  rw [splitAt_eq, whole, left_bytes whole]

theorem readPort_whole (host : Text) (whole : Whole [2] socket) :
  (readPort recv host socket).map Socket.bytes = readPort splitAt host socket.bytes := by
  unfold readPort
  rw [splitAt_bytes whole.1]
  dsimp only
  split <;> rfl

/-- The same host from the stream at once, with the port still whole. -/
def Follows : Except (Ending Socket) (Text × Socket) -> Except (Ending (List UInt8)) (Text × List UInt8) -> Prop
  | .error ending, flat => flat = .error (ending.map Socket.bytes)
  | .ok (host, left), flat => flat = .ok (host, left.bytes) /\ Whole [2] left

theorem readPacked_whole {size : ℕ} (text : List UInt8 -> Text) (caught : Bool) (whole : Whole [size, 2] socket) :
  Follows (readPacked recv size text caught socket) (readPacked splitAt size text caught socket.bytes) := by
  unfold readPacked
  rw [splitAt_bytes whole.1]
  dsimp only
  split
  · exact ⟨rfl, whole.2⟩
  · cases caught <;> rfl

theorem readHost_whole {kind : UInt8} (whole : Whole (addressParts kind socket.bytes) socket) :
  Follows (readHost inet recv kind socket) (readHost inet splitAt kind socket.bytes) := by
  unfold readHost
  unfold addressParts at whole
  by_cases four : kind = 1
  · simp only [if_pos four] at whole ⊢
    exact readPacked_whole _ _ whole
  · simp only [if_neg four] at whole ⊢
    by_cases named : kind = 3
    · simp only [if_pos named] at whole ⊢
      rw [splitAt_bytes whole.1]
      by_cases ended : (recv 1 socket).1 = []
      · rw [if_pos ended, if_pos ended]
        rfl
      · have size : (recv 1 socket).1.headD 0 = socket.bytes.headD 0 := by
          rw [whole.1]
          cases socket.bytes <;> rfl
        rw [if_neg ended, if_neg ended, size, splitAt_bytes whole.2.1]
        exact ⟨rfl, whole.2.2⟩
    · simp only [if_neg named] at whole ⊢
      by_cases sixteen : kind = 4
      · simp only [if_pos sixteen] at whole ⊢
        exact readPacked_whole _ _ whole
      · simp only [if_neg sixteen]
        rfl

theorem readRequest_whole (whole : Whole [4] socket) (address : socket.bytes[1]? = some 1 ->
    Whole (addressParts (socket.bytes.getD 3 0) (socket.bytes.drop 4)) (recv 4 socket).2) :
  (readRequest inet recv socket).map Socket.bytes = readRequest inet splitAt socket.bytes := by
  unfold readRequest
  rw [splitAt_bytes whole.1]
  dsimp only
  by_cases bad : (recv 4 socket).1.length < 4 \/ (recv 4 socket).1[1]? ≠ some 1
  · rw [if_pos bad, if_pos bad]
    rfl
  · rw [if_neg bad, if_neg bad]
    have kind : (recv 4 socket).1.getD 3 0 = socket.bytes.getD 3 0 := by
      rw [whole.1]
      simp [getD_eq_getElem?_getD]
    have connects : socket.bytes[1]? = some 1 := by
      rw [whole.1, getElem?_take_of_lt (by decide)] at bad
      exact of_not_not (not_or.mp bad).2
    have found := readHost_whole inet (left_bytes whole.1 ▸ address connects)
    rw [kind]
    generalize readHost inet recv (socket.bytes.getD 3 0) (recv 4 socket).2 = host at found
    rcases host with _ | ⟨host, _⟩
    · rw [found]
    · rw [found.1]
      exact readPort_whole host found.2

theorem handle_refused (refused : ¬ Greets socket.bytes) : handle inet socket = .closed := by
  have short : (recv 262 socket).1.length < 2 \/ (recv 262 socket).1.head? ≠ some 5 := by
    by_contra greets
    rw [not_or, not_lt, not_not] at greets
    apply refused
    rw [<- bytes_recv 262 socket]
    refine ⟨?_, ?_⟩
    · rw [length_append]
      exact Nat.le_add_right_of_le greets.1
    · rw [head?_append, greets.2]
      rfl
  unfold handle
  exact if_pos short

theorem handle_inParts (inParts : InParts socket) (greets : Greets socket.bytes) :
  (handle inet socket).map Socket.bytes = readRequest inet splitAt (socket.bytes.drop (greetingLength socket.bytes)) := by
  have read : ¬ ((recv 262 socket).1.length < 2 \/ (recv 262 socket).1.head? ≠ some 5) := by
    rw [inParts.greeting, length_take, head?_take, if_neg (by unfold greetingLength; omega), greets.2, not_or, not_not]
    exact ⟨Nat.not_lt.mpr (Nat.le_min.mpr ⟨Nat.le_add_right _ _, greets.1⟩), rfl⟩
  unfold handle
  dsimp only
  rw [if_neg read, <- left_bytes inParts.greeting]
  exact readRequest_whole inet inParts.header inParts.address

theorem readRequest_connect (connect : Connect) (rest : List UInt8) :
  readRequest inet splitAt (connect.request ++ rest) = .session (connect.address.host inet) connect.port rest := by
  rcases connect with ⟨_, _, address, _, _⟩
  cases address with
  | ipv4 packed whole | ipv6 packed whole =>
    simp [readRequest, readHost, readPacked, readPort, Connect.request, Connect.port, Address.bytes, Address.host,
      take_append_of_le_length, whole]
  | name bytes short =>
    have size : (UInt8.ofNat bytes.length).toNat = bytes.length := UInt8.toNat_ofNat_of_lt' short
    simp [readRequest, readHost, readPort, Connect.request, Connect.port, Address.bytes, Address.host, size]

theorem readPort_open (host : Text) (stream : List UInt8) : readPort splitAt host stream ≠ .closed := by
  unfold readPort
  dsimp only
  split <;> simp

theorem readHost_closed (kind : UInt8) (stream : List UInt8) :
  readHost inet splitAt kind stream = .error .closed ↔
    kind ∉ [1, 3, 4] \/ kind = 1 /\ stream.length < 4 \/ kind = 3 /\ stream = [] := by
  unfold readHost
  by_cases four : kind = 1
  · have part : (stream.take 4).length = 4 ↔ ¬ stream.length < 4 := by
      rw [length_take]
      omega
    subst four
    unfold readPacked
    split <;> simp_all
  · by_cases named : kind = 3
    · subst named
      cases stream <;> simp
    · by_cases sixteen : kind = 4
      · subst sixteen
        rw [if_neg four, if_neg named, if_pos rfl]
        unfold readPacked
        dsimp only
        split <;> simp
      · simp [four, named, sixteen]

theorem readRequest_closed (stream : List UInt8) : readRequest inet splitAt stream = .closed ↔ Refused stream := by
  have header : ((stream.take 4).length < 4 \/ (stream.take 4)[1]? ≠ some 1) ↔ stream.length < 4 \/ stream[1]? ≠ some 1 := by
    have least : min 4 stream.length < 4 ↔ stream.length < 4 := by omega
    rw [length_take, getElem?_take_of_lt (by decide), least]
  have kind : (stream.take 4).getD 3 0 = stream.getD 3 0 := by simp
  unfold readRequest Refused
  rw [splitAt_eq]
  dsimp only
  rw [kind, <- or_assoc, <- readHost_closed inet]
  simp only [header]
  split
  · rename_i bad
    exact iff_of_true rfl (.inl bad)
  · rename_i good
    rw [or_iff_right good]
    cases readHost inet splitAt (stream.getD 3 0) (stream.drop 4) with
    | error ending => simp
    | ok found => exact iff_of_false (readPort_open _ _) (by simp)

theorem handle_connect (inParts : InParts socket) {connect : Connect} {rest : List UInt8}
  (same : socket.bytes = connect.greeting ++ (connect.request ++ rest)) :
  (handle inet socket).map Socket.bytes = .session (connect.address.host inet) connect.port rest := by
  have size : greetingLength socket.bytes = connect.greeting.length := by
    rw [same]
    simp only [greetingLength, Connect.greeting, cons_append, getD_cons_succ, getD_cons_zero, length_cons]
    rw [UInt8.toNat_ofNat_of_lt' connect.few]
    omega
  rw [handle_inParts inet inParts (same ▸ ⟨Nat.le_add_left _ _, rfl⟩), size, same, drop_left]
  exact readRequest_connect inet connect rest

def loopback : Inet := ⟨fun _ => .ofString "127.0.0.1", fun _ => .ofString "::1"⟩

/-- A greeting, and a request for port 22 of 127.0.0.1. -/
def asking : Connect := ⟨[0], by decide, .ipv4 [127, 0, 0, 1] rfl, 0, 22⟩

def askingApart : Socket := ⟨[⟨asking.greeting, by decide⟩, ⟨asking.request, by decide⟩]⟩

end BananaChat.Tunnels.Socks
