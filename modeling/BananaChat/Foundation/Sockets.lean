import BananaChat.Foundation.Streams

namespace BananaChat.Foundation

open List Reader

/-!
# Reading a socket

A read of a socket returns at least one byte and at most as many as were asked for; how many is not
up to the program.
-/

abbrev Piece := {bytes : List UInt8 // bytes ≠ []}

structure Socket where
  pieces : List Piece

abbrev SocketReader (Value : Type) := StateT Socket (Except Halt) Value

namespace Socket

def bytes (socket : Socket) : List UInt8 := socket.pieces.flatMap Subtype.val

/-- One read of at most `limit` bytes; none when nothing arrives any more. -/
def recv (limit : ℕ) (socket : Socket) : Option (List UInt8 × Socket) :=
  match socket.pieces with
  | [] => none
  | piece :: later =>
    if longer : limit < piece.val.length then
      some (piece.val.take limit, ⟨⟨piece.val.drop limit, ne_nil_of_length_pos (by rw [length_drop]; omega)⟩ :: later⟩)
    else
      some (piece.val, ⟨later⟩)

variable {limit : ℕ} {socket : Socket}

theorem recv_none (nothing : socket.recv limit = none) : socket.bytes = [] := by
  rcases socket with ⟨pieces⟩
  cases pieces with
  | nil => rfl
  | cons piece later =>
    unfold recv at nothing
    dsimp only at nothing
    split at nothing
    · cases nothing
    · cases nothing

theorem recv_some {left : Socket} {chunk : List UInt8} (positive : 0 < limit)
  (taken : socket.recv limit = some (chunk, left)) :
  socket.bytes = chunk ++ left.bytes /\ 0 < chunk.length /\ chunk.length <= limit := by
  rcases socket with ⟨pieces⟩
  cases pieces with
  | nil => cases taken
  | cons piece later =>
    unfold recv at taken
    dsimp only at taken
    split at taken
    · rename_i longer
      cases taken
      refine ⟨?_, ?_, length_take_le _ _⟩
      · change piece.val ++ _ = piece.val.take limit ++ (piece.val.drop limit ++ _)
        rw [<- append_assoc, take_append_drop]
      · rw [length_take, Nat.min_eq_left (Nat.le_of_lt longer)]
        exact positive
    · rename_i short
      cases taken
      exact ⟨rfl, length_pos_of_ne_nil piece.property, Nat.le_of_not_lt short⟩

end Socket

namespace SocketReader

variable {Value Result : Type}

def broken (message : String) : SocketReader Value := fun _ => .error (.broken message)

/-- Read until `size` bytes are there, at most `most` of them at a time. -/
def gather (most : ℕ) [NeZero most] (size : ℕ) (data : List UInt8) (socket : Socket) :
  Except Halt (List UInt8 × Socket) :=
  if _missing : data.length < size then
    match _taken : socket.recv (min most (size - data.length)) with
    | none => .error .starved
    | some (chunk, left) => gather most size (data ++ chunk) left
  else
    .ok (data, socket)
termination_by size - data.length
decreasing_by
  have positive : 0 < min most (size - data.length) := Nat.lt_min.mpr ⟨NeZero.pos most, Nat.sub_pos_of_lt _missing⟩
  have grown := (Socket.recv_some positive _taken).2.1
  rw [length_append]
  omega

def forget (outcome : Except Halt (Value × Socket)) : Except Halt (Value × List UInt8) :=
  outcome.map (fun found => (found.1, found.2.bytes))

def Refines (detailed : SocketReader Value) (reader : Reader Value) : Prop :=
  ∀ socket : Socket, forget (detailed socket) = reader socket.bytes

variable {detailed : SocketReader Value} {reader : Reader Value} {socket : Socket}

theorem Refines.ok (refines : Refines detailed reader)
  {value : Value} {rest : List UInt8} (isRead : reader socket.bytes = .ok (value, rest)) :
  ∃ left : Socket, detailed socket = .ok (value, left) /\ left.bytes = rest := by
  have same := refines socket
  rw [isRead] at same
  cases outcome : detailed socket with
  | error halt =>
    rw [outcome] at same
    cases same
  | ok found =>
    rw [outcome] at same
    cases same
    exact ⟨found.2, rfl, rfl⟩

theorem Refines.error (refines : Refines detailed reader)
  {halt : Halt} (halted : reader socket.bytes = .error halt) : detailed socket = .error halt := by
  have same := refines socket
  rw [halted] at same
  cases outcome : detailed socket with
  | error other =>
    rw [outcome] at same
    cases same
    rfl
  | ok found =>
    rw [outcome] at same
    cases same

theorem refines_pure (value : Value) : Refines (pure value) (pure value) := fun _ => rfl

theorem refines_broken (message : String) : Refines (broken message : SocketReader Value) (Reader.broken message) :=
  fun _ => rfl

theorem Refines.bind {first : SocketReader Value} {next : Value -> SocketReader Result}
  {readerNext : Value -> Reader Result} (refines : Refines first reader)
  (refinesNext : ∀ value, (∃ stream rest, reader stream = .ok (value, rest)) ->
    Refines (next value) (readerNext value)) : Refines (first >>= next) (reader >>= readerNext) := by
  intro socket
  cases outcome : reader socket.bytes with
  | error halt =>
    rw [bind_error outcome]
    change forget (first socket >>= fun found => next found.1 found.2) = _
    rw [refines.error outcome]
    rfl
  | ok found =>
    rcases found with ⟨value, _⟩
    rcases refines.ok outcome with ⟨left, isRead, same⟩
    rw [bind_ok outcome, <- same]
    change forget (first socket >>= fun found => next found.1 found.2) = _
    rw [isRead]
    exact refinesNext value ⟨_, _, outcome⟩ left

theorem Refines.ite {condition : Prop} [Decidable condition] {first second : SocketReader Value}
  {otherReader : Reader Value} (refines : Refines first reader) (refinesSecond : Refines second otherReader) :
  Refines (if condition then first else second) (if condition then reader else otherReader) := by
  by_cases holds : condition
  · rw [if_pos holds, if_pos holds]
    exact refines
  · rw [if_neg holds, if_neg holds]
    exact refinesSecond

theorem forget_gather (most : ℕ) [NeZero most] (size : ℕ) (data : List UInt8) (socket : Socket)
  (some : data.length <= size) : forget (gather most size data socket) =
    (exact (size - data.length) socket.bytes).map (fun found => (data ++ found.1, found.2)) := by
  fun_induction gather most size data socket with
  | case1 data socket missing nothing =>
    unfold exact
    rw [Socket.recv_none nothing, if_neg (by rw [length_nil]; omega)]
    rfl
  | case2 data socket missing chunk left taken ih =>
    have positive : 0 < min most (size - data.length) :=
      Nat.lt_min.mpr ⟨NeZero.pos most, Nat.sub_pos_of_lt missing⟩
    rcases Socket.recv_some positive taken with ⟨split, _, bounded⟩
    have fits : chunk.length <= size - data.length := Nat.le_trans bounded (Nat.min_le_right _ _)
    rw [ih (by rw [length_append]; omega), split, length_append]
    unfold exact
    have later : size - (data.length + chunk.length) = size - data.length - chunk.length := by omega
    by_cases enough : size - data.length <= (chunk ++ left.bytes).length
    · rw [if_pos enough, if_pos (by rw [length_append] at enough; omega)]
      rw [take_append, take_of_length_le fits, drop_append, drop_of_length_le fits, later]
      change Except.ok (data ++ chunk ++ _, _) = Except.ok (data ++ (chunk ++ _), [] ++ _)
      rw [append_assoc, nil_append]
    · rw [if_neg enough, if_neg (by rw [length_append] at enough; omega)]
      rfl
  | case3 data socket notMissing =>
    have whole : size - data.length = 0 := by omega
    rw [whole]
    unfold exact
    change Except.ok (data, socket.bytes) = Except.ok (data ++ [], socket.bytes)
    rw [append_nil]

theorem gather_refines (most : ℕ) [NeZero most] (size : ℕ) : Refines (gather most size []) (exact size) := by
  intro socket
  rw [forget_gather most size [] socket (Nat.zero_le size), length_nil, Nat.sub_zero]
  cases exact size socket.bytes with
  | error halt | ok found => rfl

end SocketReader
end BananaChat.Foundation
