import Criteria.Proofs.Number.Finite

set_option autoImplicit false

namespace Criteria.Ieee

-- Powers are the core library's, whichever instances are in scope besides.
attribute [local instance (high)] instPowNat

theorem halfEven_eq {num den m : ℕ} (positive : 0 < den) (low : (m : ℚ) - 1 / 2 ≤ (num : ℚ) / den)
    (high : (num : ℚ) / den ≤ m + 1 / 2)
    (ties : m % 2 = 1 → (m : ℚ) - 1 / 2 < (num : ℚ) / den ∧ (num : ℚ) / den < m + 1 / 2) :
    halfEven num den = m := by
  have den_pos : (0 : ℚ) < den := by exact_mod_cast positive
  have low : 2 * m * den ≤ 2 * num + den := by
    rw [le_div_iff₀ den_pos] at low
    have low : (2 * m * den : ℚ) ≤ 2 * num + den := by linarith
    exact_mod_cast low
  have high : 2 * num ≤ 2 * m * den + den := by
    rw [div_le_iff₀ den_pos] at high
    have high : (2 * num : ℚ) ≤ 2 * m * den + den := by linarith
    exact_mod_cast high
  have ties : m % 2 = 1 → 2 * m * den < 2 * num + den ∧ 2 * num < 2 * m * den + den := by
    intro odd
    have ⟨low, high⟩ := ties odd
    rw [lt_div_iff₀ den_pos] at low
    rw [div_lt_iff₀ den_pos] at high
    have low : (2 * m * den : ℚ) < 2 * num + den := by linarith
    have high : (2 * num : ℚ) < 2 * m * den + den := by linarith
    exact ⟨by exact_mod_cast low, by exact_mod_cast high⟩
  have parts := Nat.div_add_mod num den
  have small := Nat.mod_lt num positive
  unfold halfEven
  dsimp only
  generalize num / den = q at *
  generalize num % den = r at *
  subst parts
  have notAbove : q ≤ m := by
    by_contra! above
    have scaled := Nat.mul_le_mul_right den above
    linarith
  have notBelow : m ≤ q + 1 := by
    by_contra! below
    have scaled := Nat.mul_le_mul_right den below
    linarith
  obtain rfl | rfl : m = q ∨ m = q + 1 := by omega
  · rw [if_pos]
    rcases Nat.lt_or_ge (2 * r) den with less | half
    · exact .inl less
    · refine .inr ⟨by linarith, ?_⟩
      by_contra odd
      have strict := (ties (by omega)).2
      linarith
  · rw [if_neg]
    rintro (less | ⟨half, even⟩)
    · linarith
    · have strict := (ties (by omega)).1
      linarith

variable {x : Ieee}

section Inside

variable {num den : ℕ} (nonzero : x.isZero = false) (positive : 0 < den)
  (inside : x.vicinity.Contains ((num : ℚ) / den))

include nonzero inside in
theorem ratio_pos : 0 < num := by
  refine Nat.pos_of_ne_zero fun zero => ?_
  have low := inside.bounds.1
  have some := step_le_size nonzero
  rw [low_vicinity nonzero, zero, Nat.cast_zero, zero_div] at low
  linarith [x.slack_le, x.step_pos]

include inside in
theorem ratio_lt : (num : ℚ) / den < 2 ^ x.precision.fractionBits * 2 * x.step := by
  have high := inside.bounds.2
  have room : (x.mantissa : ℚ) + 1 ≤ 2 ^ (x.precision.fractionBits + 1) := by
    exact_mod_cast x.mantissa_lt
  rw [pow_succ] at room
  rw [high_vicinity, size] at high
  have full := mul_le_mul_of_nonneg_right room x.step_pos.le
  linarith [x.step_pos]

include nonzero positive inside in
theorem halfEven_of_contains :
    halfEven (num * 2 ^ (-x.exponent).toNat) (den * 2 ^ x.exponent.toNat) = x.mantissa := by
  have step := x.step_pos
  have slack := x.slack_le
  have scaled : ((num * 2 ^ (-x.exponent).toNat : ℕ) : ℚ) / (den * 2 ^ x.exponent.toNat : ℕ) =
      (num : ℚ) / den / x.step := (ratio_div_zpow 2 num den x.exponent).symm
  have bounds := inside.bounds
  rw [low_vicinity nonzero, high_vicinity, size] at bounds
  refine halfEven_eq (Nat.mul_pos positive (Nat.two_pow_pos _)) ?_ ?_ fun odd => ?_
  · rw [scaled, le_div_iff₀ step]
    linarith
  · rw [scaled, div_le_iff₀ step]
    linarith
  · have notClosed : x.vicinity.closed = false := by simp [closed_vicinity, odd]
    simp only [Vicinity.Contains, notClosed, low_vicinity nonzero, high_vicinity, size] at inside
    rw [scaled, lt_div_iff₀ step, div_lt_iff₀ step]
    constructor <;> linarith [inside.1, inside.2]

include nonzero inside in
theorem narrow_of_short (short : (num : ℚ) / den < 2 ^ x.precision.fractionBits * x.step)
    (above : x.precision.minExponent < x.exponent) :
    x.Narrow ∧ 2 ^ x.precision.fractionBits * x.step / 2 ≤ (num : ℚ) / den := by
  have low := inside.bounds.1
  have step := x.step_pos
  have slack := x.slack_le
  have least := mantissa_ge_of_exponent above
  rw [low_vicinity nonzero, size] at low
  have notAbove : x.mantissa < 2 ^ x.precision.fractionBits + 1 := by
    by_contra! large
    have large : (2 : ℚ) ^ x.precision.fractionBits + 1 ≤ x.mantissa := by exact_mod_cast large
    have large := mul_le_mul_of_nonneg_right large step.le
    linarith
  have mantissa : x.mantissa = 2 ^ x.precision.fractionBits := by omega
  refine ⟨⟨mantissa, above.ne'⟩, ?_⟩
  have some : (1 : ℚ) ≤ 2 ^ x.precision.fractionBits := one_le_pow₀ (by norm_num)
  have some := mul_le_mul_of_nonneg_right some step.le
  rw [mantissa, Nat.cast_pow, Nat.cast_ofNat] at low
  linarith

include nonzero positive inside in
theorem grid_of_contains :
    max (binade num den - x.precision.fractionBits) x.precision.minExponent = x.exponent ∨
      x.Narrow ∧ (num : ℚ) / den < 2 ^ x.precision.fractionBits * x.step ∧
        max (binade num den - x.precision.fractionBits) x.precision.minExponent =
          x.exponent - 1 := by
  obtain ⟨low, high⟩ := binade_spec (ratio_pos nonzero inside) positive
  have least := x.minExponent_le
  have step := x.step_pos
  have power (n : ℕ) : (2 : ℚ) ^ n * x.step = 2 ^ (n + x.exponent) := by
    rw [zpow_add₀ (by norm_num), zpow_natCast, Ieee.step]
  have order (a b : ℤ) : (2 : ℚ) ^ a < 2 ^ b ↔ a < b := zpow_lt_zpow_iff_right₀ (by norm_num)
  have notAbove : binade num den < (x.precision.fractionBits + 1 : ℕ) + x.exponent := by
    rw [← order, ← power, pow_succ]
    exact low.trans_lt (ratio_lt inside)
  rcases le_or_gt ((2 : ℚ) ^ x.precision.fractionBits * x.step) (num / den) with full | short
  · have notBelow : x.precision.fractionBits + x.exponent < binade num den + 1 := by
      rw [← order, ← power]
      exact full.trans_lt high
    omega
  have below : binade num den < x.precision.fractionBits + x.exponent := by
    rw [← order, ← power]
    exact low.trans_lt short
  rcases Int.lt_or_eq_of_le least with above | same
  · right
    obtain ⟨narrow, reach⟩ := narrow_of_short nonzero inside short above
    have near : x.precision.fractionBits + x.exponent - 1 < binade num den + 1 := by
      rw [← order, zpow_sub₀ (by norm_num), ← power, zpow_one]
      exact reach.trans_lt high
    exact ⟨narrow, short, by omega⟩
  · left
    omega

include nonzero positive inside in
theorem halfEven_of_narrow (narrow : x.Narrow)
    (short : (num : ℚ) / den < 2 ^ x.precision.fractionBits * x.step) :
    halfEven (num * 2 ^ (-(x.exponent - 1)).toNat) (den * 2 ^ (x.exponent - 1).toNat) =
      2 * x.mantissa := by
  have step := x.step_pos
  have low := inside.bounds.1
  have mantissa : (x.mantissa : ℚ) = 2 ^ x.precision.fractionBits := by
    rw [narrow.1]
    norm_num
  rw [low_vicinity nonzero, size, slack, if_pos narrow] at low
  rw [← mantissa] at short
  have halfStep : (2 : ℚ) ^ (x.exponent - 1) = x.step / 2 := by
    rw [zpow_sub₀ (by norm_num), zpow_one, Ieee.step]
  have scaled : ((num * 2 ^ (-(x.exponent - 1)).toNat : ℕ) : ℚ) /
      (den * 2 ^ (x.exponent - 1).toNat : ℕ) = (num : ℚ) / den / (x.step / 2) := by
    rw [← halfStep]
    exact (ratio_div_zpow 2 num den (x.exponent - 1)).symm
  refine halfEven_eq (Nat.mul_pos positive (Nat.two_pow_pos _)) ?_ ?_ fun odd => by omega
  · rw [scaled, le_div_iff₀ (by linarith)]
    push_cast
    linarith
  · rw [scaled, div_le_iff₀ (by linarith)]
    push_cast
    linarith

end Inside

theorem nearestMagnitude_of_contains (finite : x.isFinite = true) (nonzero : x.isZero = false)
    {num den : ℕ} (positive : 0 < den) (inside : x.vicinity.Contains ((num : ℚ) / den)) :
    nearestMagnitude x.precision num den = x.magnitude := by
  have bounded : x.magnitude ≤ x.precision.infinityBits := by
    have bounded : x.magnitude < x.precision.infinityBits := by simpa [isFinite] using finite
    exact bounded.le
  have magnitude := x.magnitude_eq
  unfold nearestMagnitude
  rw [if_neg (ratio_pos nonzero inside).ne']
  dsimp only
  rcases grid_of_contains nonzero positive inside with same | ⟨narrow, short, half⟩
  · rw [same, halfEven_of_contains nonzero positive inside, ← magnitude]
    exact Nat.min_eq_left bounded
  · have steps : (x.exponent - x.precision.minExponent).toNat =
        (x.exponent - 1 - x.precision.minExponent).toNat + 1 := by
      have least := x.minExponent_le
      have notLeast := narrow.2
      omega
    rw [steps, Nat.succ_mul, narrow.1] at magnitude
    have same : (x.exponent - 1 - x.precision.minExponent).toNat * 2 ^ x.precision.fractionBits +
        2 * x.mantissa = x.magnitude := by
      rw [magnitude, narrow.1]
      omega
    rw [half, halfEven_of_narrow nonzero positive inside narrow short, same]
    exact Nat.min_eq_left bounded

theorem ofRatio_of_contains (finite : x.isFinite = true) (nonzero : x.isZero = false)
    {num den : ℕ} (positive : 0 < den) (inside : x.vicinity.Contains ((num : ℚ) / den)) :
    ofRatio x.precision x.negative num den = x := by
  rw [ofRatio, nearestMagnitude_of_contains finite nonzero positive inside, ofMagnitude_magnitude]

end Criteria.Ieee
