import Mathlib.Data.Nat.Bitwise
import Mathlib.Tactic.Ring

namespace BananaChat.Foundation

open List

/-!
# Bytes as one integer

The number that bytes make up, the least significant byte first, and the bytes of a number.
-/

def ofLittleEndian : List UInt8 -> ℕ
  | [] => 0
  | byte :: rest => byte.toNat + 256 * ofLittleEndian rest

/-- The `width` low bytes of a number, the least significant first. -/
def littleEndian : ℕ -> ℕ -> List UInt8
  | 0, _ => []
  | width + 1, value => UInt8.ofNat value :: littleEndian width (value / 256)

def toBytes (width value : ℕ) : Option (List UInt8) :=
  if value < 256 ^ width then some (littleEndian width value) else none

theorem ofLittleEndian_lt (bytes : List UInt8) : ofLittleEndian bytes < 256 ^ bytes.length := by
  induction bytes with
  | nil => exact Nat.one_pos
  | cons byte rest ih =>
    have low : byte.toNat < 256 := byte.toNat_lt
    unfold ofLittleEndian
    rw [length_cons, Nat.pow_succ]
    omega

theorem littleEndian_ofLittleEndian (bytes : List UInt8) : littleEndian bytes.length (ofLittleEndian bytes) = bytes := by
  induction bytes with
  | nil => rfl
  | cons byte rest ih =>
    have low : byte.toNat < 256 := byte.toNat_lt
    have first : UInt8.ofNat (byte.toNat + 256 * ofLittleEndian rest) = byte := by
      apply UInt8.toNat_inj.mp
      rw [UInt8.toNat_ofNat']
      omega
    have others : (byte.toNat + 256 * ofLittleEndian rest) / 256 = ofLittleEndian rest := by omega
    unfold ofLittleEndian
    rw [length_cons, littleEndian, first, others, ih]

theorem toBytes_ofLittleEndian (bytes : List UInt8) : toBytes bytes.length (ofLittleEndian bytes) = some bytes := by
  unfold toBytes
  rw [if_pos (ofLittleEndian_lt bytes), littleEndian_ofLittleEndian]

theorem xor_byte (first second : UInt8) (high otherHigh : ℕ) :
  (first.toNat + 256 * high) ^^^ (second.toNat + 256 * otherHigh) =
    (first ^^^ second).toNat + 256 * (high ^^^ otherHigh) := by
  have firstLow : first.toNat < 256 := first.toNat_lt
  have secondLow : second.toNat < 256 := second.toNat_lt
  have low := @Nat.xor_mod_two_pow (first.toNat + 256 * high) (second.toNat + 256 * otherHigh) 8
  have up := @Nat.xor_div_two_pow (first.toNat + 256 * high) (second.toNat + 256 * otherHigh) 8
  rw [show 2 ^ 8 = 256 by rfl] at low up
  rw [show (first.toNat + 256 * high) % 256 = first.toNat by omega,
    show (second.toNat + 256 * otherHigh) % 256 = second.toNat by omega, <- UInt8.toNat_xor] at low
  rw [show (first.toNat + 256 * high) / 256 = high by omega,
    show (second.toNat + 256 * otherHigh) / 256 = otherHigh by omega] at up
  rw [<- low, <- up, Nat.mod_add_div]

theorem ofLittleEndian_xor {first second : List UInt8} (same : first.length = second.length) :
  ofLittleEndian first ^^^ ofLittleEndian second = ofLittleEndian (zipWith (fun byte other => byte ^^^ other) first second) := by
  induction first generalizing second with
  | nil =>
    rw [eq_nil_of_length_eq_zero same.symm]
    rfl
  | cons byte rest ih =>
    cases second with
    | nil => cases same
    | cons other others =>
      have shorter : rest.length = others.length := Nat.succ.inj same
      rw [zipWith_cons_cons]
      unfold ofLittleEndian
      rw [xor_byte, ih shorter]

end BananaChat.Foundation
