import Mathlib

namespace BananaChat.Foundation

open List

/-!
# Reading a stream of bytes

A reader takes values from the front of a stream.
-/

inductive Halt
  /-- It waits for bytes that have not arrived. -/
  | starved
  | broken (message : String)

abbrev Reader (Value : Type) := StateT (List UInt8) (Except Halt) Value

namespace Reader

variable {Value Result : Type}

/-- The next `size` bytes. -/
def exact (size : ℕ) : Reader (List UInt8) := fun stream =>
  if size <= stream.length then .ok (stream.take size, stream.drop size) else .error .starved

def broken (message : String) : Reader Value := fun _ => .error (.broken message)

theorem exact_append {size : ℕ} {bytes : List UInt8} (fits : bytes.length = size) (rest : List UInt8) :
  exact size (bytes ++ rest) = .ok (bytes, rest) := by
  subst fits
  unfold exact
  rw [if_pos (by simp), take_left, drop_left]

variable {rest stream : List UInt8} {first : Reader Value} {next : Value -> Reader Result}

theorem exact_split {size : ℕ} {bytes : List UInt8} (isRead : exact size stream = .ok (bytes, rest)) :
  stream = bytes ++ rest /\ bytes.length = size := by
  unfold exact at isRead
  split at isRead
  · rename_i fits
    cases isRead
    exact ⟨(take_append_drop size stream).symm, length_take_of_le fits⟩
  · cases isRead

theorem bind_ok {value : Value} (isRead : first stream = .ok (value, rest)) :
  (first >>= next) stream = next value rest := by
  change (first stream >>= fun outcome => next outcome.1 outcome.2) = _
  rw [isRead]
  rfl

theorem bind_error {halt : Halt} (halted : first stream = .error halt) : (first >>= next) stream = .error halt := by
  change (first stream >>= fun outcome => next outcome.1 outcome.2) = _
  rw [halted]
  rfl

theorem bind_eq_ok {result : Result} (isRead : (first >>= next) stream = .ok (result, rest)) :
  ∃ value middle, first stream = .ok (value, middle) /\ next value middle = .ok (result, rest) := by
  cases outcome : first stream with
  | error halt =>
    rw [bind_error outcome] at isRead
    cases isRead
  | ok found =>
    rcases found with ⟨value, middle⟩
    rw [bind_ok outcome] at isRead
    exact ⟨value, middle, rfl, isRead⟩

def Steady (reader : Reader Value) : Prop :=
  ∀ stream more : List UInt8, reader stream ≠ .error .starved ->
    reader (stream ++ more) = (reader stream).map (fun outcome => (outcome.1, outcome.2 ++ more))

variable {reader : Reader Value}

theorem Steady.ok (steady : Steady reader) {value : Value}
  (isRead : reader stream = .ok (value, rest)) (more : List UInt8) : reader (stream ++ more) = .ok (value, rest ++ more) := by
  rw [steady stream more (by rw [isRead]; exact nofun), isRead]
  rfl

theorem Steady.broken (steady : Steady reader) {message : String}
  (isBroken : reader stream = .error (.broken message)) (more : List UInt8) :
  reader (stream ++ more) = .error (.broken message) := by
  rw [steady stream more (by rw [isBroken]; exact nofun), isBroken]
  rfl

theorem steady_pure (value : Value) : Steady (pure value) := by
  intro _ _ _
  rfl

theorem steady_broken (message : String) : Steady (broken message : Reader Value) := by
  intro _ _ _
  rfl

theorem steady_exact (size : ℕ) : Steady (exact size) := by
  intro stream more fed
  by_cases fits : size <= stream.length
  · have fitsMore : size <= (stream ++ more).length := by
      rw [length_append]
      exact Nat.le_add_right_of_le fits
    unfold exact
    rw [if_pos fits, if_pos fitsMore, take_append_of_le_length fits, drop_append_of_le_length fits]
    rfl
  · unfold exact at fed
    rw [if_neg fits] at fed
    exact absurd rfl fed

theorem Steady.bind (steady : Steady first) (steadyNext : ∀ value, Steady (next value)) : Steady (first >>= next) := by
  intro stream more fed
  cases outcome : first stream with
  | error halt =>
    cases halt with
    | starved => exact absurd (bind_error outcome) fed
    | broken message =>
      rw [bind_error outcome, bind_error (steady.broken outcome more)]
      rfl
  | ok found =>
    rcases found with ⟨value, rest⟩
    rw [bind_ok outcome] at fed ⊢
    rw [bind_ok (steady.ok outcome more)]
    exact steadyNext value rest more fed

variable {condition : Prop} {second : Reader Value}

theorem Steady.ite [Decidable condition] (steady : Steady first)
  (steadySecond : Steady second) : Steady (if condition then first else second) := by
  by_cases holds : condition
  · rw [if_pos holds]
    exact steady
  · rw [if_neg holds]
    exact steadySecond

def Consumes (reader : Reader Value) : Prop :=
  ∀ stream value rest, reader stream = .ok (value, rest) -> rest.length <= stream.length

theorem consumes_pure (value : Value) : Consumes (pure value) := by
  intro _ _ _ isRead
  cases isRead
  exact Nat.le_refl _

theorem consumes_broken (message : String) : Consumes (broken message : Reader Value) := by
  intro _ _ _ isRead
  cases isRead

theorem consumes_exact (size : ℕ) : Consumes (exact size) := by
  intro _ _ _ isRead
  rw [(exact_split isRead).1, length_append]
  exact Nat.le_add_left _ _

theorem Consumes.bind (consumes : Consumes first) (consumesNext : ∀ value, Consumes (next value)) :
  Consumes (first >>= next) := by
  intro stream result rest isRead
  rcases bind_eq_ok isRead with ⟨value, middle, firstRead, nextRead⟩
  exact Nat.le_trans (consumesNext value middle result rest nextRead) (consumes stream value middle firstRead)

theorem Consumes.ite [Decidable condition] (consumes : Consumes first)
  (consumesSecond : Consumes second) : Consumes (if condition then first else second) := by
  by_cases holds : condition
  · rw [if_pos holds]
    exact consumes
  · rw [if_neg holds]
    exact consumesSecond

end Reader

/-- The `width` bytes of a number, the most significant first. -/
def bigEndian : ℕ -> ℕ -> List UInt8
  | 0, _ => []
  | width + 1, value => UInt8.ofNat (value / 256 ^ width) :: bigEndian width (value % 256 ^ width)

def ofBigEndian (bytes : List UInt8) : ℕ := bytes.foldl (fun value byte => 256 * value + byte.toNat) 0

@[simp] theorem length_bigEndian (width value : ℕ) : (bigEndian width value).length = width := by
  induction width generalizing value with
  | zero => rfl
  | succ width ih =>
    unfold bigEndian
    rw [length_cons, ih]

theorem ofBigEndian_shift (width value high : ℕ) (fits : value < 256 ^ width) :
  (bigEndian width value).foldl (fun value byte => 256 * value + byte.toNat) high = 256 ^ width * high + value := by
  induction width generalizing value high with
  | zero =>
    rw [Nat.pow_zero, Nat.lt_one_iff] at fits
    rw [fits, Nat.pow_zero, Nat.one_mul, Nat.add_zero]
    rfl
  | succ width ih =>
    have positive : 0 < 256 ^ width := Nat.pow_pos (by decide)
    have top : value / 256 ^ width < 256 := by
      rw [Nat.div_lt_iff_lt_mul positive]
      omega
    have byte : (UInt8.ofNat (value / 256 ^ width)).toNat = value / 256 ^ width := by
      exact Nat.mod_eq_of_lt top
    unfold bigEndian
    rw [foldl_cons, ih _ _ (Nat.mod_lt _ positive), byte, Nat.mul_add, Nat.add_assoc,
      Nat.div_add_mod, <- Nat.mul_assoc, <- Nat.pow_succ]

theorem ofBigEndian_bigEndian {width value : ℕ} (fits : value < 256 ^ width) :
  ofBigEndian (bigEndian width value) = value := by
  unfold ofBigEndian
  rw [ofBigEndian_shift width value 0 fits, Nat.mul_zero, Nat.zero_add]

end BananaChat.Foundation
