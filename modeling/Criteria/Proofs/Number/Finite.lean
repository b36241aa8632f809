import Criteria.Proofs.Number.Vicinity

set_option autoImplicit false

namespace Criteria.Ieee

-- Powers are the core library's, whichever instances are in scope besides.
attribute [local instance (high)] instPowNat

theorem binade_spec {num den : ℕ} (positive : 0 < num) (positive' : 0 < den) :
    (2 : ℚ) ^ binade num den ≤ num / den ∧ (num : ℚ) / den < 2 ^ (binade num den + 1) := by
  have den_pos : (0 : ℚ) < den := by exact_mod_cast positive'
  have numLow : (2 : ℚ) ^ (num.log2 : ℤ) ≤ num := by
    exact_mod_cast Nat.log2_self_le positive.ne'
  have numHigh : (num : ℚ) < 2 ^ ((num.log2 : ℤ) + 1) := by
    exact_mod_cast Nat.lt_log2_self
  have denLow : (2 : ℚ) ^ (den.log2 : ℤ) ≤ den := by
    exact_mod_cast Nat.log2_self_le positive'.ne'
  have denHigh : (den : ℚ) < 2 ^ ((den.log2 : ℤ) + 1) := by
    exact_mod_cast Nat.lt_log2_self
  have power (a b : ℤ) : (2 : ℚ) ^ (a + b) = 2 ^ a * 2 ^ b := zpow_add₀ (by norm_num) a b
  have low : (2 : ℚ) ^ ((num.log2 : ℤ) - den.log2 - 1) ≤ num / den := by
    rw [le_div_iff₀ den_pos]
    calc (2 : ℚ) ^ ((num.log2 : ℤ) - den.log2 - 1) * den
        ≤ 2 ^ ((num.log2 : ℤ) - den.log2 - 1) * 2 ^ ((den.log2 : ℤ) + 1) := by gcongr
      _ = 2 ^ (num.log2 : ℤ) := by rw [← power]; congr 1; omega
      _ ≤ num := numLow
  have high : (num : ℚ) / den < 2 ^ ((num.log2 : ℤ) - den.log2 + 1) := by
    rw [div_lt_iff₀ den_pos]
    calc (num : ℚ) < 2 ^ ((num.log2 : ℤ) + 1) := numHigh
      _ = 2 ^ ((num.log2 : ℤ) - den.log2 + 1) * 2 ^ (den.log2 : ℤ) := by
        rw [← power]; congr 1; omega
      _ ≤ 2 ^ ((num.log2 : ℤ) - den.log2 + 1) * den := by gcongr
  have reaches : (2 : ℚ) ^ ((num.log2 : ℤ) - den.log2) ≤ num / den ↔ _ :=
    zpow_le_ratio_iff (b := 2) (by norm_num) positive' (num.log2 - den.log2)
  unfold binade
  dsimp only
  split
  · next here => exact ⟨reaches.2 here, high⟩
  · next short =>
    refine ⟨low, ?_⟩
    rw [sub_add_cancel]
    exact lt_of_not_ge (mt reaches.1 short)

variable {x : Ieee}

def step (x : Ieee) : ℚ :=
  2 ^ x.exponent

def size (x : Ieee) : ℚ :=
  x.mantissa * x.step

def toRat (x : Ieee) : ℚ :=
  if x.negative then -x.size else x.size

theorem step_pos (x : Ieee) : 0 < x.step :=
  zpow_pos (by norm_num) _

theorem mantissa_lt (x : Ieee) : x.mantissa < 2 ^ (x.precision.fractionBits + 1) := by
  unfold mantissa
  have small := Nat.mod_lt x.magnitude (Nat.two_pow_pos x.precision.fractionBits)
  dsimp only
  rw [Nat.pow_succ]
  split <;> omega

theorem mantissa_pos (nonzero : x.isZero = false) : 0 < x.mantissa := by
  have nonzero : x.magnitude ≠ 0 := by simpa [isZero] using nonzero
  have power := Nat.two_pow_pos x.precision.fractionBits
  unfold mantissa
  dsimp only
  split <;> omega

theorem exponent_bounds (finite : x.isFinite = true) : -1074 ≤ x.exponent ∧ x.exponent ≤ 971 := by
  obtain ⟨p, negative, magnitude, fits⟩ := x
  simp only [isFinite, decide_eq_true_eq, exponent] at *
  cases p <;>
    simp only [Precision.infinityBits, Precision.minExponent, Precision.fractionBits,
      Precision.exponentBits] at * <;>
    omega

theorem fractionBits_le (p : Precision) : p.fractionBits ≤ 52 := by
  cases p <;> decide

theorem size_nonneg (x : Ieee) : 0 ≤ x.size :=
  mul_nonneg (Nat.cast_nonneg _) x.step_pos.le

theorem size_pos (nonzero : x.isZero = false) : 0 < x.size :=
  mul_pos (by exact_mod_cast mantissa_pos nonzero) x.step_pos

theorem step_le_size (nonzero : x.isZero = false) : x.step ≤ x.size :=
  le_mul_of_one_le_left x.step_pos.le (by exact_mod_cast mantissa_pos nonzero)

theorem size_lt (x : Ieee) : x.size < 2 ^ 53 * x.step := by
  have few := fractionBits_le x.precision
  have small : x.mantissa < 2 ^ 53 :=
    x.mantissa_lt.trans_le (Nat.pow_le_pow_right (by norm_num) (by omega))
  exact mul_lt_mul_of_pos_right (by exact_mod_cast small) x.step_pos

theorem abs_toRat (x : Ieee) : |x.toRat| = x.size := by
  have positive := x.size_nonneg
  unfold toRat
  split
  · rw [abs_neg, abs_of_nonneg positive]
  · exact abs_of_nonneg positive

theorem size_of_isZero (zero : x.isZero = true) : x.size = 0 := by
  have zero : x.magnitude = 0 := by simpa [isZero] using zero
  have mantissa : x.mantissa = 0 := by simp [mantissa, zero]
  rw [size, mantissa, Nat.cast_zero, zero_mul]

theorem magnitude_eq (x : Ieee) : x.magnitude =
    (x.exponent - x.precision.minExponent).toNat * 2 ^ x.precision.fractionBits + x.mantissa := by
  have parts := Nat.div_add_mod x.magnitude (2 ^ x.precision.fractionBits)
  have power := Nat.two_pow_pos x.precision.fractionBits
  unfold exponent mantissa
  rw [add_sub_cancel_left, Int.toNat_natCast]
  dsimp only
  split
  · next less =>
    rw [Nat.div_eq_of_lt less]
    simp
  · next large =>
    obtain ⟨h, made⟩ := Nat.exists_eq_succ_of_ne_zero
      (Nat.div_pos (Nat.le_of_not_lt large) power).ne'
    rw [made] at parts ⊢
    rw [Nat.succ_sub_one, ← Nat.add_assoc, ← Nat.succ_mul, Nat.mul_comm]
    exact parts.symm

theorem minExponent_le (x : Ieee) : x.precision.minExponent ≤ x.exponent := by
  unfold exponent
  omega

theorem ofMagnitude_magnitude (x : Ieee) :
    ofMagnitude x.precision x.negative x.magnitude = x := by
  obtain ⟨p, negative, magnitude, fits⟩ := x
  simp only [ofMagnitude, Nat.mod_eq_of_lt fits]

theorem mantissa_ge_of_exponent (above : x.precision.minExponent < x.exponent) :
    2 ^ x.precision.fractionBits ≤ x.mantissa := by
  unfold exponent at above
  have full : ¬ x.magnitude < 2 ^ x.precision.fractionBits := by
    intro less
    rw [Nat.div_eq_of_lt less] at above
    omega
  unfold mantissa
  simp only [full, if_false]
  omega

theorem coarse_bounds (coarse : 1 < x.exponent) :
    (2 : ℚ) ^ x.precision.fractionBits ≤ x.mantissa ∧ 4 ≤ x.step := by
  have above : x.precision.minExponent < x.exponent := by
    refine lt_of_lt_of_le ?_ coarse
    cases x.precision <;> decide
  have step : (2 : ℚ) ^ (2 : ℤ) ≤ x.step := zpow_le_zpow_right₀ (by norm_num) (by omega)
  refine ⟨by exact_mod_cast mantissa_ge_of_exponent above, ?_⟩
  norm_num at step
  exact step

theorem exponent_le_one (small : x.size < 2 ^ (x.precision.fractionBits + 2)) : x.exponent ≤ 1 := by
  by_contra! coarse
  obtain ⟨mantissa, step⟩ := coarse_bounds coarse
  have large : (2 : ℚ) ^ x.precision.fractionBits * 4 ≤ x.size :=
    mul_le_mul mantissa step (by positivity) (by positivity)
  rw [pow_add] at small
  linarith

theorem exponent_le_one_of_near {r : ℚ} (near : |r - x.size| ≤ x.step / 2)
    (small : r ≤ 2 ^ (x.precision.fractionBits + 1)) : x.exponent ≤ 1 := by
  by_contra! coarse
  obtain ⟨mantissa, step⟩ := coarse_bounds coarse
  have bits : (2 : ℚ) ≤ 2 ^ x.precision.fractionBits := by
    cases x.precision <;> norm_num [Precision.fractionBits]
  have half : x.size - x.step / 2 = (x.mantissa - 1 / 2) * x.step := by
    rw [size]
    ring
  have large : ((2 : ℚ) ^ x.precision.fractionBits - 1 / 2) * 4 ≤ (x.mantissa - 1 / 2) * x.step :=
    mul_le_mul (by linarith) step (by norm_num) (by linarith)
  have low := (abs_le.1 near).1
  rw [pow_succ] at small
  linarith

theorem lt_of_exponent_le_one (small : x.exponent ≤ 1) {n : ℕ} (whole : x.size = n) :
    n < 10 ^ 17 := by
  have less := x.size_lt
  have step : x.step ≤ 2 ^ (1 : ℤ) := zpow_le_zpow_right₀ (by norm_num) small
  rw [whole] at less
  rw [zpow_one] at step
  have less : (n : ℚ) < 2 ^ 53 * 2 := by linarith
  have less : n < 2 ^ 53 * 2 := by exact_mod_cast less
  omega

theorem eq_size_of_near {r : ℚ} {j : ℕ} (multiple : r = j * x.step)
    (near : |r - x.size| ≤ x.step / 2) : r = x.size := by
  have positive := x.step_pos
  have apart : |(j : ℚ) - x.mantissa| ≤ 1 / 2 := by
    rw [multiple, size, ← sub_mul, abs_mul, abs_of_pos positive] at near
    exact le_of_mul_le_mul_right (near.trans_eq (by ring)) positive
  have apart : |(j : ℤ) - x.mantissa| < 1 := by
    have less : |(j : ℚ) - x.mantissa| < 1 := apart.trans_lt (by norm_num)
    exact_mod_cast less
  have same := Int.abs_lt_one_iff.1 apart
  rw [multiple, size]
  congr 2
  omega

theorem natCast_multiple (n : ℕ) (fine : x.exponent ≤ 0) : ∃ j : ℕ, (n : ℚ) = j * x.step := by
  obtain ⟨e, made⟩ : ∃ e : ℕ, x.exponent = -(e : ℤ) := ⟨(-x.exponent).toNat, by omega⟩
  refine ⟨n * 2 ^ e, ?_⟩
  rw [step, made, zpow_neg, zpow_natCast]
  push_cast
  field_simp

def Narrow (x : Ieee) : Prop :=
  x.mantissa = 2 ^ x.precision.fractionBits ∧ x.exponent ≠ x.precision.minExponent

instance (x : Ieee) : Decidable x.Narrow :=
  inferInstanceAs (Decidable (_ ∧ _))

def slack (x : Ieee) : ℚ :=
  if x.Narrow then x.step / 4 else x.step / 2

theorem slack_pos (x : Ieee) : 0 < x.slack := by
  have positive := x.step_pos
  unfold slack
  split <;> linarith

theorem slack_le (x : Ieee) : x.slack ≤ x.step / 2 := by
  have positive := x.step_pos
  unfold slack
  split <;> linarith

theorem closed_vicinity (x : Ieee) : x.vicinity.closed = (x.mantissa % 2 == 0) :=
  rfl

theorem quarter (x : Ieee) :
    ((2 ^ (x.exponent - 2).toNat : ℕ) : ℚ) / (x.vicinity.unit : ℕ) = x.step / 4 := by
  have power := zpow_eq_div 2 (x.exponent - 2)
  rw [zpow_sub₀ (by norm_num)] at power
  have unit : x.vicinity.unit = 2 ^ (-(x.exponent - 2)).toNat := rfl
  rw [unit, step]
  push_cast
  rw [← power]
  norm_num

theorem unit_pos (x : Ieee) : 0 < x.vicinity.unit :=
  Nat.two_pow_pos _

theorem mid_vicinity (x : Ieee) : x.vicinity.mid = x.size := by
  have centre : x.vicinity.centre = 4 * x.mantissa * 2 ^ (x.exponent - 2).toNat := rfl
  rw [Vicinity.mid, centre, Nat.cast_mul, mul_div_assoc, quarter, size]
  push_cast
  ring

theorem high_vicinity (x : Ieee) : x.vicinity.high = x.size + x.step / 2 := by
  have upper : x.vicinity.upper = (4 * x.mantissa + 2) * 2 ^ (x.exponent - 2).toNat := rfl
  rw [Vicinity.high, upper, Nat.cast_mul, mul_div_assoc, quarter, size]
  push_cast
  ring

theorem low_vicinity (nonzero : x.isZero = false) : x.vicinity.low = x.size - x.slack := by
  have positive := mantissa_pos nonzero
  have lower : x.vicinity.lower =
      (4 * x.mantissa - if x.Narrow then 1 else 2) * 2 ^ (x.exponent - 2).toNat :=
    congrArg (fun n => (4 * x.mantissa - n) * 2 ^ (x.exponent - 2).toNat)
      (if_congr (by simp [Narrow]) rfl rfl)
  rw [Vicinity.low, lower, Nat.cast_mul, mul_div_assoc, quarter, size, slack]
  split
  · rw [Nat.cast_sub (by omega)]
    push_cast
    ring
  · rw [Nat.cast_sub (by omega)]
    push_cast
    ring

theorem proper_vicinity (nonzero : x.isZero = false) : x.vicinity.Proper where
  unit_pos := x.unit_pos
  low_lt := by
    rw [low_vicinity nonzero, mid_vicinity]
    linarith [x.slack_pos]
  lt_high := by
    rw [high_vicinity, mid_vicinity]
    linarith [x.step_pos]

theorem near_of_contains (nonzero : x.isZero = false) {r : ℚ} (inside : x.vicinity.Contains r) :
    |r - x.size| ≤ x.step / 2 := by
  have bounds := inside.bounds
  rw [low_vicinity nonzero, high_vicinity] at bounds
  rw [abs_le]
  constructor <;> linarith [x.slack_le]

end Criteria.Ieee
