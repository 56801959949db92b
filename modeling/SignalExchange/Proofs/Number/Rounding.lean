import Mathlib.Algebra.Order.Field.Power
import Mathlib.Data.Rat.Cast.Order
import Mathlib.Tactic.FieldSimp
import Mathlib.Tactic.Linarith
import Mathlib.Tactic.NormNum
import Mathlib.Tactic.Positivity
import Mathlib.Tactic.Ring
import SignalExchange.Number.Shortest

/-! Rounding to binary64 numbers.

The fractions that round to a number form an interval around it, which contains its ends when the
significand is even. The intervals of two numbers do not meet: where they touch, one of the two
significands is odd.
-/

set_option autoImplicit false

namespace SignalExchange

namespace Binary64

variable {x y : Binary64} {q : ℚ}

/-- A quarter of the gap to the number above. -/
def quarter (x : Binary64) : ℚ := 2 ^ x.exponent / 4

/-- The quarters down to the middle below; a power of two has its neighbour at half the distance. -/
def quartersBelow (x : Binary64) : ℕ :=
  if x.significand = 2 ^ 52 ∧ leastExponent < x.exponent then 1 else 2

def magnitude (x : Binary64) : ℚ := 4 * x.significand * x.quarter

def low (x : Binary64) : ℚ := (4 * x.significand - x.quartersBelow) * x.quarter

def high (x : Binary64) : ℚ := (4 * x.significand + 2) * x.quarter

/-- The fraction rounds to the magnitude of the number, a half to the even neighbour. -/
def Rounds (x : Binary64) (q : ℚ) : Prop :=
  if x.significand % 2 = 0 then x.low ≤ q ∧ q ≤ x.high else x.low < q ∧ q < x.high

theorem quarter_pos (x : Binary64) : 0 < x.quarter := by
  unfold quarter
  positivity

theorem quartersBelow_le (x : Binary64) : x.quartersBelow ≤ 2 := by
  unfold quartersBelow
  split <;> omega

theorem Rounds.within (rounds : x.Rounds q) : x.low ≤ q ∧ q ≤ x.high := by
  unfold Rounds at rounds
  split at rounds
  · exact rounds
  · exact ⟨rounds.1.le, rounds.2.le⟩

theorem rounds_of_between (above : x.low < q) (below : q < x.high) : x.Rounds q := by
  unfold Rounds
  split
  · exact ⟨above.le, below.le⟩
  · exact ⟨above, below⟩

theorem Rounds.even (rounds : x.Rounds q) (atEnd : q = x.low ∨ q = x.high) :
    x.significand % 2 = 0 := by
  unfold Rounds at rounds
  split at rounds
  next even => exact even
  next =>
    rcases atEnd with rfl | rfl
    · exact absurd rounds.1 (lt_irrefl _)
    · exact absurd rounds.2 (lt_irrefl _)

/-! Numbers in their order -/

/-- The number comes before another one in the order of their magnitudes. -/
def Before (x y : Binary64) : Prop :=
  x.exponent < y.exponent ∨ (x.exponent = y.exponent ∧ x.significand < y.significand)

theorem quarter_of_le (order : x.exponent ≤ y.exponent) :
    y.quarter = 2 ^ (y.exponent - x.exponent).toNat * x.quarter := by
  have apart : y.exponent = x.exponent + ((y.exponent - x.exponent).toNat : ℤ) := by omega
  unfold quarter
  conv_lhs => rw [apart, zpow_add₀ (by norm_num), zpow_natCast]
  ring

/-- The end above the first number, in its own quarters, is not beyond the end below the second. -/
theorem ends_of_before (normal : x.Normal) (normal' : y.Normal) (before : x.Before y) :
    4 * x.significand + 2 ≤
        (4 * y.significand - y.quartersBelow) * 2 ^ (y.exponent - x.exponent).toNat ∧
      (x.significand % 2 = 0 → y.significand % 2 = 0 → 4 * x.significand + 2 <
        (4 * y.significand - y.quartersBelow) * 2 ^ (y.exponent - x.exponent).toNat) := by
  obtain ⟨fits, notBelow, -, form⟩ := normal
  obtain ⟨-, -, -, form'⟩ := normal'
  rcases before with less | ⟨same, less⟩
  -- Above the least exponent the significand is full, and its gap is at least twice as wide.
  · have full : 2 ^ 52 ≤ y.significand := form'.resolve_right (by omega)
    have twice : 2 ≤ 2 ^ (y.exponent - x.exponent).toNat := Nat.le_self_pow (by omega) 2
    have scaled := Nat.mul_le_mul_left (4 * y.significand - y.quartersBelow) twice
    generalize quarters : y.quartersBelow = below at scaled ⊢
    unfold quartersBelow at quarters
    split at quarters <;> omega
  · -- The number below a power of two has another exponent, unless both have the least one.
    have regular : y.quartersBelow = 2 := by
      unfold quartersBelow
      split <;> omega
    rw [regular, same, sub_self, Int.toNat_zero, pow_zero, mul_one]
    omega

theorem low_of_before (before : x.exponent ≤ y.exponent)
    (given : y.quartersBelow ≤ 4 * y.significand) : y.low =
      ((4 * y.significand - y.quartersBelow) * 2 ^ (y.exponent - x.exponent).toNat : ℕ) *
        x.quarter := by
  rw [low, quarter_of_le before]
  push_cast [given]
  ring

theorem not_rounds_before (normal : x.Normal) (normal' : y.Normal) (before : x.Before y)
    (rounds : x.Rounds q) : ¬y.Rounds q := by
  intro rounds'
  obtain ⟨apart, strictly⟩ := ends_of_before normal normal' before
  have order : x.exponent ≤ y.exponent := by
    rcases before with less | ⟨same, -⟩ <;> omega
  have given : y.quartersBelow ≤ 4 * y.significand := by
    have positive : 0 < 4 * y.significand - y.quartersBelow :=
      Nat.pos_of_ne_zero fun zero => by simp [zero] at apart
    omega
  have touching : x.high ≤ y.low := by
    rw [low_of_before order given, high]
    exact mul_le_mul_of_nonneg_right (by exact_mod_cast apart) x.quarter_pos.le
  have atHigh : q = x.high := le_antisymm rounds.within.2 (touching.trans rounds'.within.1)
  have atLow : q = y.low := le_antisymm (rounds.within.2.trans touching) rounds'.within.1
  -- The fraction is an end of both intervals, but only one of them contains it.
  have less := strictly (rounds.even (.inr atHigh)) (rounds'.even (.inl atLow))
  have separate : x.high < y.low := by
    rw [low_of_before order given, high]
    exact mul_lt_mul_of_pos_right (by exact_mod_cast less) x.quarter_pos
  rw [← atHigh, ← atLow] at separate
  exact lt_irrefl q separate

theorem eq_of_rounds (normal : x.Normal) (normal' : y.Normal) (rounds : x.Rounds q)
    (rounds' : y.Rounds q) : x.significand = y.significand ∧ x.exponent = y.exponent := by
  rcases lt_trichotomy x.exponent y.exponent with less | same | more
  · exact absurd rounds' (not_rounds_before normal normal' (.inl less) rounds)
  · rcases lt_trichotomy x.significand y.significand with less | equal | more
    · exact absurd rounds' (not_rounds_before normal normal' (.inr ⟨same, less⟩) rounds)
    · exact ⟨equal, same⟩
    · exact absurd rounds (not_rounds_before normal' normal (.inr ⟨same.symm, more⟩) rounds')
  · exact absurd rounds (not_rounds_before normal' normal (.inl more) rounds')

end Binary64

end SignalExchange
