import BananaChat.Foundation.LittleEndian
import BananaChat.Tunnels.WebSocket

namespace BananaChat.Tunnels.WebSocket

open Foundation List

/-!
# The mask of a frame

Both sides mask with one exclusive-or of two large integers: the payload, and the key repeated to
the payload's length.
-/

abbrev Mask := {bytes : List UInt8 // bytes.length = 4}

def repeated (mask : List UInt8) (size : ℕ) : List UInt8 := (replicate (size / 4 + 1) mask).flatten.take size

/-- `_xor`, of the server and of the worker's client; none where the number does not fit the bytes. -/
def xorIntegers (payload mask : List UInt8) : Option (List UInt8) :=
  if payload.length = 0 then some []
  else toBytes payload.length (ofLittleEndian payload ^^^ ofLittleEndian (repeated mask payload.length))

theorem getElem?_maskFrom (mask : List UInt8) (place : ℕ) (payload : List UInt8) (index : ℕ) :
  (maskFrom mask place payload)[index]? =
    payload[index]?.map (fun byte => byte ^^^ mask.getD ((place + index) % 4) 0) := by
  induction payload generalizing place index with
  | nil => rfl
  | cons byte rest ih =>
    unfold maskFrom
    cases index with
    | zero => rfl
    | succ index =>
      rw [getElem?_cons_succ, getElem?_cons_succ, ih, Nat.add_assoc, Nat.add_comm 1 index]

variable {mask : List UInt8}

section

variable (fourBytes : mask.length = 4)
include fourBytes

theorem getElem?_copies (copies : ℕ) {index : ℕ} (inside : index < 4 * copies) :
  (replicate copies mask).flatten[index]? = some (mask.getD (index % 4) 0) := by
  induction copies generalizing index with
  | zero => exact absurd inside (Nat.not_lt_zero index)
  | succ copies ih =>
    rw [replicate_succ, flatten_cons]
    by_cases first : index < 4
    · rw [getElem?_append_left (by omega), Nat.mod_eq_of_lt first, getD_eq_getElem?_getD]
      rw [getElem?_eq_getElem (by omega)]
      rfl
    · have later : (index - 4) % 4 = index % 4 := by omega
      rw [getElem?_append_right (by omega), fourBytes, ih (by omega), later]

theorem getElem?_repeated {size index : ℕ} (inside : index < size) :
  (repeated mask size)[index]? = some (mask.getD (index % 4) 0) := by
  unfold repeated
  rw [getElem?_take_of_lt inside]
  exact getElem?_copies fourBytes _ (by omega)

theorem length_repeated (size : ℕ) : (repeated mask size).length = size := by
  unfold repeated
  rw [length_take, length_flatten, map_replicate, sum_replicate, fourBytes, smul_eq_mul]
  omega

theorem zipWith_repeated (payload : List UInt8) :
  zipWith (fun byte other => byte ^^^ other) payload (repeated mask payload.length) = xor payload mask := by
  apply ext_getElem?
  intro index
  unfold xor
  rw [getElem?_zipWith, getElem?_maskFrom, Nat.zero_add]
  by_cases inside : index < payload.length
  · rw [getElem?_repeated fourBytes inside, getElem?_eq_getElem inside]
    rfl
  · rw [getElem?_eq_none (Nat.le_of_not_lt inside)]
    rfl

/-- With a key of four bytes `_xor` never overflows, and masks byte by byte. -/
theorem xorIntegers_eq (payload : List UInt8) : xorIntegers payload mask = some (xor payload mask) := by
  unfold xorIntegers
  by_cases empty : payload.length = 0
  · rw [if_pos empty, eq_nil_of_length_eq_zero empty]
    rfl
  · rw [if_neg empty, ofLittleEndian_xor (length_repeated fourBytes payload.length).symm, zipWith_repeated fourBytes]
    have fits := toBytes_ofLittleEndian (xor payload mask)
    rw [length_xor] at fits
    exact fits

end

theorem xor_eq_mapIdx (payload mask : List UInt8) :
  xor payload mask = payload.mapIdx (fun index byte => byte ^^^ mask.getD (index % 4) 0) := by
  apply ext_getElem?
  intro _
  unfold xor
  rw [getElem?_maskFrom, getElem?_mapIdx, Nat.zero_add]

end BananaChat.Tunnels.WebSocket
