import Mathlib.Data.Rat.Floor

namespace BananaChat.Foundation

/-!
# Rounding to a number of decimals

The nearest whole number, to the even one of two that are equally near, and the same at a given
number of decimals.
-/

def roundEven (amount : ℚ) : ℤ :=
  if amount - ⌊amount⌋ < 1 / 2 \/ (amount - ⌊amount⌋ = 1 / 2 /\ ⌊amount⌋ % 2 = 0) then ⌊amount⌋ else ⌊amount⌋ + 1

theorem floor_le_roundEven (amount : ℚ) : ⌊amount⌋ <= roundEven amount := by
  unfold roundEven
  split
  · exact le_refl _
  · exact (lt_add_one _).le

theorem roundEven_le_floor (amount : ℚ) : roundEven amount <= ⌊amount⌋ + 1 := by
  unfold roundEven
  split
  · exact (lt_add_one _).le
  · exact le_refl _

theorem roundEven_mono {small large : ℚ} (below : small <= large) : roundEven small <= roundEven large := by
  rcases (Int.floor_le_floor below).lt_or_eq with apart | same
  · have next : ⌊small⌋ + 1 <= ⌊large⌋ := apart
    exact (roundEven_le_floor small).trans (next.trans (floor_le_roundEven large))
  · unfold roundEven
    rw [<- same]
    by_cases down : large - ⌊small⌋ < 1 / 2 \/ (large - ⌊small⌋ = 1 / 2 /\ ⌊small⌋ % 2 = 0)
    · rw [if_pos down, if_pos]
      rcases down with _ | ⟨_, even⟩
      · exact .inl (by linarith)
      · rcases below.lt_or_eq with _ | _
        · exact .inl (by linarith)
        · exact .inr ⟨by linarith, even⟩
    · split
      · exact (lt_add_one _).le
      · exact le_refl _

@[simp] theorem roundEven_whole (whole : ℤ) : roundEven (whole : ℚ) = whole := by
  unfold roundEven
  rw [if_pos, Int.floor_intCast]
  exact .inl (by norm_num)

theorem roundEven_near (amount : ℚ) : amount - 1 / 2 <= roundEven amount /\ (roundEven amount : ℚ) <= amount + 1 / 2 := by
  have low := Int.floor_le amount
  have high := Int.lt_floor_add_one amount
  unfold roundEven
  split
  · rename_i down
    rcases down with nearer | ⟨_, _⟩
    · constructor <;> linarith
    · constructor <;> linarith
  · rename_i up
    have far : 1 / 2 <= amount - ⌊amount⌋ := by
      by_contra nearer
      exact up (.inl (not_le.mp nearer))
    push_cast
    constructor <;> linarith

theorem roundEven_eq_zero_iff {amount : ℚ} (nonneg : 0 <= amount) : roundEven amount = 0 ↔ amount <= 1 / 2 := by
  constructor
  · intro zero
    have near := (roundEven_near amount).1
    rw [zero, Int.cast_zero] at near
    linarith
  · intro small
    have floor : ⌊amount⌋ = 0 := Int.floor_eq_zero_iff.mpr ⟨nonneg, by linarith⟩
    unfold roundEven
    rw [floor, Int.cast_zero, sub_zero, if_pos]
    rcases small.lt_or_eq with less | half
    · exact .inl less
    · exact .inr ⟨half, rfl⟩

def roundDecimals (decimals : ℕ) (amount : ℚ) : ℚ := roundEven (amount * 10 ^ decimals) / 10 ^ decimals

theorem roundDecimals_mono (decimals : ℕ) {small large : ℚ} (below : small <= large) :
  roundDecimals decimals small <= roundDecimals decimals large := by
  have positive : (0 : ℚ) < 10 ^ decimals := by positivity
  have scaled : small * 10 ^ decimals <= large * 10 ^ decimals := mul_le_mul_of_nonneg_right below positive.le
  exact div_le_div_of_nonneg_right (Int.cast_le.mpr (roundEven_mono scaled)) positive.le

theorem roundDecimals_exact (decimals : ℕ) {amount : ℚ} (whole : ℤ) (exact : amount = whole / 10 ^ decimals) :
  roundDecimals decimals amount = amount := by
  have positive : (0 : ℚ) < 10 ^ decimals := by positivity
  have scaled : amount * 10 ^ decimals = whole := by
    rw [exact, div_mul_cancel₀ _ positive.ne']
  rw [roundDecimals, scaled, roundEven_whole, exact]

theorem roundDecimals_roundDecimals (decimals : ℕ) (amount : ℚ) :
  roundDecimals decimals (roundDecimals decimals amount) = roundDecimals decimals amount :=
  roundDecimals_exact decimals (roundEven (amount * 10 ^ decimals)) rfl

theorem roundDecimals_natCast (decimals number : ℕ) : roundDecimals decimals (number : ℚ) = number := by
  have positive : (0 : ℚ) < 10 ^ decimals := by positivity
  refine roundDecimals_exact decimals (number * 10 ^ decimals) ?_
  push_cast
  rw [mul_div_cancel_right₀ _ positive.ne']

theorem roundDecimals_near (decimals : ℕ) (amount : ℚ) :
  amount - 1 / 2 / 10 ^ decimals <= roundDecimals decimals amount /\
    roundDecimals decimals amount <= amount + 1 / 2 / 10 ^ decimals := by
  have positive : (0 : ℚ) < 10 ^ decimals := by positivity
  have near := roundEven_near (amount * 10 ^ decimals)
  unfold roundDecimals
  constructor
  · rw [le_div_iff₀ positive, sub_mul, div_mul_cancel₀ _ positive.ne']
    exact near.1
  · rw [div_le_iff₀ positive, add_mul, div_mul_cancel₀ _ positive.ne']
    exact near.2

end BananaChat.Foundation
