import SignalExchange.Proofs.Number.Rounding

/-! The decimal that is written for a number rounds to it.

A decimal is only taken from the interval of the number. With seventeen digits one of the two
decimals around the number always lies there, because their distance is below that of two numbers.
-/

set_option autoImplicit false

namespace SignalExchange

theorem zpow_eq_div {base : ℕ} (positive : 0 < base) (exponent : ℤ) :
    (base : ℚ) ^ exponent = (base ^ exponent.toNat : ℕ) / (base ^ (-exponent).toNat : ℕ) := by
  have notZero : (base : ℚ) ≠ 0 := by positivity
  rcases le_total 0 exponent with up | down
  · obtain ⟨n, rfl⟩ := Int.eq_ofNat_of_zero_le up
    simp
  · obtain ⟨n, same⟩ := Int.eq_ofNat_of_zero_le (Int.neg_nonneg.2 down)
    obtain rfl : exponent = -(n : ℤ) := by omega
    simp [zpow_neg]

namespace Binary64

variable {x : Binary64} {digits : ℕ} {exponent : ℤ}

theorem decimalQuotient_pos : 0 < (decimalQuotient digits exponent).2 :=
  Nat.pow_pos (by omega)

theorem decimalQuotient_eq : ((decimalQuotient digits exponent).1 : ℚ) /
    (decimalQuotient digits exponent).2 = digits * 10 ^ exponent := by
  have power := @zpow_eq_div 10 (by omega) exponent
  rw [Nat.cast_ofNat] at power
  rw [power]
  simp only [decimalQuotient]
  push_cast
  ring

theorem scale_pos : 0 < x.interval.scale := Nat.mul_pos (by omega) (Nat.pow_pos (by omega))

theorem quarter_eq : x.quarter = (2 ^ x.exponent.toNat : ℕ) / x.interval.scale := by
  have power := @zpow_eq_div 2 (by omega) x.exponent
  rw [Nat.cast_ofNat] at power
  rw [quarter, power]
  simp only [interval]
  push_cast
  field_simp

theorem interval_value : (x.interval.value : ℚ) / x.interval.scale = x.magnitude := by
  rw [magnitude, quarter_eq]
  simp only [interval]
  push_cast
  ring

theorem interval_high : (x.interval.high : ℚ) / x.interval.scale = x.high := by
  rw [high, quarter_eq]
  simp only [interval]
  push_cast
  ring

theorem interval_low (nonzero : x.significand ≠ 0) :
    (x.interval.low : ℚ) / x.interval.scale = x.low := by
  have given : x.quartersBelow ≤ 4 * x.significand := by
    have := x.quartersBelow_le
    omega
  have same : x.interval.low = (4 * x.significand - x.quartersBelow) * 2 ^ x.exponent.toNat := rfl
  rw [low, quarter_eq, same]
  push_cast [given]
  ring

theorem holds_iff (nonzero : x.significand ≠ 0) :
    x.interval.holds (decimalQuotient digits exponent).1 (decimalQuotient digits exponent).2 = true
      ↔ x.Rounds (digits * 10 ^ exponent) := by
  have scale : (0 : ℚ) < x.interval.scale := by exact_mod_cast scale_pos
  have den : (0 : ℚ) < (decimalQuotient digits exponent).2 := by exact_mod_cast decimalQuotient_pos
  rw [Rounds, ← interval_low nonzero, ← interval_high, ← decimalQuotient_eq]
  have closed : x.interval.closed = decide (x.significand % 2 = 0) := rfl
  rw [Interval.holds, closed]
  simp only [decide_eq_true_eq, div_le_div_iff₀ scale den, div_le_div_iff₀ den scale,
    div_lt_div_iff₀ scale den, div_lt_div_iff₀ den scale]
  split <;> simp only [Bool.and_eq_true, decide_eq_true_eq] <;> norm_cast

/-! Places of a decimal -/

theorem lt_pow_decimalLength (n : ℕ) : n < 10 ^ decimalLength n :=
  (Nat.length_toDigits_le_iff (by omega) Nat.length_toDigits_pos).1 le_rfl

theorem pow_decimalLength_le {n : ℕ} (positive : 0 < n) : 10 ^ (decimalLength n - 1) ≤ n := by
  rcases Nat.eq_zero_or_pos (decimalLength n - 1) with none | more
  · rwa [none, pow_zero]
  · have shorter : ¬decimalLength n ≤ decimalLength n - 1 := by omega
    exact not_lt.1 fun less =>
      shorter ((Nat.length_toDigits_le_iff (by omega) more).2 less)

theorem pow_decimalPoint_le {num den : ℕ} (positive : 0 < num) (positive' : 0 < den) :
    (10 : ℚ) ^ (decimalPoint num den - 1) ≤ num / den := by
  have den' : (0 : ℚ) < den := by exact_mod_cast positive'
  rw [le_div_iff₀ den', decimalPoint]
  split
  next whole =>
    have some : 0 < num / den := Nat.div_pos whole positive'
    have places := pow_decimalLength_le some
    have length : ((decimalLength (num / den) : ℤ) - 1) = (decimalLength (num / den) - 1 : ℕ) := by
      have : 0 < decimalLength (num / den) := Nat.length_toDigits_pos
      omega
    rw [length, zpow_natCast]
    have scaled : 10 ^ (decimalLength (num / den) - 1) * den ≤ num :=
      (Nat.mul_le_mul_right den places).trans (Nat.div_mul_le_self num den)
    exact_mod_cast scaled
  next part =>
    have places := lt_pow_decimalLength ((den - 1) / num)
    have scaled : den ≤ num * 10 ^ decimalLength ((den - 1) / num) := by
      have := (Nat.div_lt_iff_lt_mul positive).1 places
      rw [Nat.mul_comm]
      omega
    have power : 1 - (decimalLength ((den - 1) / num) : ℤ) - 1 =
        -(decimalLength ((den - 1) / num) : ℤ) := by ring
    rw [power, zpow_neg, zpow_natCast, inv_mul_le_iff₀ (by positivity), mul_comm]
    exact_mod_cast scaled

/-! Seventeen digits -/

theorem floor_bounds {num den : ℕ} (positive : 0 < den) (exponent : ℤ) {floor : ℕ}
    (whole : num * 10 ^ (-exponent).toNat / (den * 10 ^ exponent.toNat) = floor) :
    (floor : ℚ) * 10 ^ exponent ≤ num / den ∧
      (num : ℚ) / den < (floor + 1 : ℕ) * 10 ^ exponent := by
  have power := @zpow_eq_div 10 (by omega) exponent
  have unit : 0 < den * 10 ^ exponent.toNat := Nat.mul_pos positive (Nat.pow_pos (by omega))
  have notAbove := Nat.div_mul_le_self (num * 10 ^ (-exponent).toNat) (den * 10 ^ exponent.toNat)
  have below := Nat.lt_mul_div_succ (num * 10 ^ (-exponent).toNat) unit
  rw [whole] at notAbove below
  have den' : (0 : ℚ) < den := by exact_mod_cast positive
  have downward : (0 : ℚ) < (10 ^ (-exponent).toNat : ℕ) := by positivity
  rw [Nat.cast_ofNat] at power
  rw [power, ← mul_div_assoc, ← mul_div_assoc, div_le_div_iff₀ downward den',
    div_lt_div_iff₀ den' downward]
  constructor
  · calc (floor : ℚ) * (10 ^ exponent.toNat : ℕ) * den
        = (floor * (den * 10 ^ exponent.toNat) : ℕ) := by push_cast; ring
      _ ≤ (num * 10 ^ (-exponent).toNat : ℕ) := by exact_mod_cast notAbove
      _ = num * (10 ^ (-exponent).toNat : ℕ) := by push_cast; ring
  · calc (num : ℚ) * (10 ^ (-exponent).toNat : ℕ)
        = (num * 10 ^ (-exponent).toNat : ℕ) := by push_cast; ring
      _ < (den * 10 ^ exponent.toNat * (floor + 1) : ℕ) := by exact_mod_cast below
      _ = (floor + 1 : ℕ) * (10 ^ exponent.toNat : ℕ) * den := by push_cast; ring

/-- A unit of the seventeenth digit is smaller than the part of the gap that rounds to the
number. -/
theorem unit_lt (normal : x.Normal) {unit : ℚ} (fine : unit * 10 ^ 16 ≤ x.magnitude) :
    unit < 2 * x.quartersBelow * x.quarter ∧ unit < 4 * x.quarter := by
  have quarter := x.quarter_pos
  have small : (x.significand : ℚ) ≤ 2 ^ 53 - 1 := by
    have fits : (x.significand : ℚ) + 1 ≤ 2 ^ 53 := by exact_mod_cast normal.1
    linarith
  have bound : x.magnitude ≤ 4 * (2 ^ 53 - 1) * x.quarter := by
    rw [magnitude]
    gcongr
  -- The magnitude is below 2 ^ 53 gaps, but at least 10 ^ 16 units.
  have usual : unit < 4 * x.quarter := by linarith
  refine ⟨?_, usual⟩
  unfold quartersBelow
  split
  -- Here the gap below is halved, but the significand is the least one.
  next power =>
    rw [magnitude, power.1] at fine
    push_cast at fine ⊢
    linarith
  next =>
    push_cast
    linarith

theorem rounds_of_seventeen (normal : x.Normal) {unit : ℚ} (positive : 0 < unit)
    (fine : unit * 10 ^ 16 ≤ x.magnitude) {floor : ℕ} (notAbove : floor * unit ≤ x.magnitude)
    (below : x.magnitude < (floor + 1 : ℕ) * unit) :
    x.Rounds (floor * unit) ∨ x.Rounds ((floor + 1 : ℕ) * unit) := by
  obtain ⟨belowGap, aboveGap⟩ := unit_lt normal fine
  have quarter := x.quarter_pos
  have low : x.low = x.magnitude - x.quartersBelow * x.quarter := by
    rw [Binary64.low, magnitude]
    ring
  have high : x.high = x.magnitude + 2 * x.quarter := by
    rw [Binary64.high, magnitude]
    ring
  push_cast at below ⊢
  -- The nearer of the two is at most half a unit away.
  rcases le_total (x.magnitude - floor * unit) (unit / 2) with near | far
  · refine .inl (rounds_of_between ?_ ?_)
    · rw [low]
      linarith
    · rw [high]
      linarith
  · refine .inr (rounds_of_between ?_ ?_)
    · rw [low]
      linarith [mul_nonneg (Nat.cast_nonneg x.quartersBelow : (0 : ℚ) ≤ _) quarter.le]
    · rw [high]
      linarith

/-! The search -/

theorem rounds_of_decimal? (nonzero : x.significand ≠ 0) {count : ℕ}
    (found : x.interval.decimal? count = some (digits, exponent)) :
    x.Rounds (digits * 10 ^ exponent) := by
  rw [← holds_iff nonzero]
  simp only [Interval.decimal?] at found
  split at found
  next here =>
    split at found
    next there =>
      cases found
      exact (Bool.and_eq_true_iff.1 there).1
    next =>
      cases found
      exact here
  next =>
    split at found
    next there =>
      cases found
      exact there
    next => cases found

theorem decimal?_seventeen (normal : x.Normal) (nonzero : x.significand ≠ 0) :
    (x.interval.decimal? 17).isSome = true := by
  have positive : 0 < x.interval.value := by
    simp only [interval]
    positivity
  have point := pow_decimalPoint_le positive (scale_pos (x := x))
  rw [interval_value] at point
  simp only [Interval.decimal?]
  generalize exponent : decimalPoint x.interval.value x.interval.scale - (17 : ℕ) = places
  generalize whole : x.interval.value * 10 ^ (-places).toNat /
    (x.interval.scale * 10 ^ places.toNat) = floor
  have unit : (0 : ℚ) < 10 ^ places := by positivity
  have fine : (10 : ℚ) ^ places * 10 ^ 16 ≤ x.magnitude := by
    rw [← zpow_natCast, ← zpow_add₀ (by norm_num)]
    convert point using 2
    push_cast
    omega
  have bounds := floor_bounds scale_pos places whole
  rw [interval_value] at bounds
  rcases rounds_of_seventeen normal unit fine bounds.1 bounds.2 with here | there
  · rw [← holds_iff nonzero] at here
    simp only [here, if_true]
    split <;> rfl
  · rw [← holds_iff nonzero] at there
    split
    · split <;> rfl
    · rfl

theorem dropTrailingZeros_eq (fuel : ℕ) (decimal : ℕ × ℤ) :
    ((dropTrailingZeros fuel decimal).1 : ℚ) * 10 ^ (dropTrailingZeros fuel decimal).2 =
      decimal.1 * 10 ^ decimal.2 := by
  induction fuel generalizing decimal with
  | zero => rfl
  | succ fuel ih =>
    obtain ⟨digits, exponent⟩ := decimal
    rw [dropTrailingZeros]
    split
    next zero =>
      rw [ih]
      have tenfold : digits = digits / 10 * 10 := by omega
      conv_rhs => rw [tenfold]
      push_cast
      rw [zpow_add_one₀ (by norm_num)]
      ring
    next => rfl

theorem shortest_rounds (normal : x.Normal) (nonzero : x.significand ≠ 0) :
    x.Rounds (x.shortest.1 * 10 ^ x.shortest.2) := by
  rw [shortest, dropTrailingZeros_eq]
  cases found : ((List.range 17).map (· + 1)).findSome? x.interval.decimal? with
  | none =>
    have missing := List.findSome?_eq_none_iff.1 found 17 (by decide)
    have present := decimal?_seventeen normal nonzero
    rw [missing] at present
    cases present
  | some decimal =>
    obtain ⟨count, -, here⟩ := List.exists_of_findSome?_eq_some found
    exact rounds_of_decimal? nonzero here

end Binary64

end SignalExchange
