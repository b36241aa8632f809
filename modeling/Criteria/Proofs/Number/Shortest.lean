import Criteria.Proofs.Number.Finite

set_option autoImplicit false

namespace Criteria.Ieee

-- Powers are the core library's, whichever instances are in scope besides.
attribute [local instance (high)] instPowNat

theorem ten_zpow_le_two_zpow {t b : ℤ} (positive : 0 ≤ b → 196 * t ≤ 59 * b)
    (negative : b < 0 → 93 * t ≤ 28 * b) : (10 : ℚ) ^ t ≤ 2 ^ b := by
  have compare (n : ℕ) (m : ℤ) (nonzero : n ≠ 0) (small : n * t ≤ m * b)
      (powers : ((10 : ℚ) ^ m) ^ b ≤ (2 ^ n) ^ b) : (10 : ℚ) ^ t ≤ 2 ^ b := by
    refine le_of_pow_le_pow_left₀ nonzero (by positivity) ?_
    calc ((10 : ℚ) ^ t) ^ n = 10 ^ (n * t) := by rw [mul_comm, zpow_mul, zpow_natCast]
      _ ≤ 10 ^ (m * b) := zpow_le_zpow_right₀ (by norm_num) small
      _ = (10 ^ m) ^ b := zpow_mul _ _ _
      _ ≤ (2 ^ n) ^ b := powers
      _ = (2 ^ b) ^ n := by rw [← zpow_natCast, ← zpow_natCast, ← zpow_mul, ← zpow_mul, mul_comm]
  rcases Int.lt_or_le b 0 with below | above
  · refine compare 93 28 (by norm_num) (negative below) ?_
    obtain ⟨n, rfl⟩ : ∃ n : ℕ, b = -(n : ℤ) := ⟨(-b).toNat, by omega⟩
    rw [zpow_neg, zpow_neg, zpow_natCast, zpow_natCast]
    gcongr
    norm_num
  · refine compare 196 59 (by norm_num) (positive above) ?_
    obtain ⟨n, rfl⟩ := Int.eq_ofNat_of_zero_le above
    rw [zpow_natCast, zpow_natCast]
    gcongr
    norm_num

theorem two_zpow_le_ten_zpow {t b : ℤ} (positive : 0 < b → 28 * b ≤ 93 * t)
    (negative : b ≤ 0 → 59 * b ≤ 196 * t) : (2 : ℚ) ^ b ≤ 10 ^ t := by
  have inverse : (10 : ℚ) ^ (-t) ≤ 2 ^ (-b) := ten_zpow_le_two_zpow (by omega) (by omega)
  rw [zpow_neg, zpow_neg] at inverse
  exact (inv_le_inv₀ (by positivity) (by positivity)).1 inverse

theorem decade_spec {num den : ℕ} (positive : 0 < num) (positive' : 0 < den)
    (near : -2000 ≤ binade num den ∧ binade num den ≤ 2000) :
    (10 : ℚ) ^ decade num den ≤ num / den ∧ (num : ℚ) / den < 10 ^ (decade num den + 1) := by
  obtain ⟨low, high⟩ := binade_spec positive positive'
  have reaches (k : ℤ) : den * 10 ^ k.toNat ≤ num * 10 ^ (-k).toNat ↔ (10 : ℚ) ^ k ≤ num / den := by
    rw [← zpow_le_ratio_iff (by norm_num) positive']
    norm_num
  unfold decade
  simp only [reaches, decide_eq_true_eq]
  generalize binade num den = b at *
  split
  · next here =>
    refine ⟨here, high.trans_le (two_zpow_le_ten_zpow ?_ ?_)⟩ <;> omega
  split
  · next short here => exact ⟨here, lt_of_not_ge short⟩
  · next short =>
    refine ⟨(ten_zpow_le_two_zpow ?_ ?_).trans low, ?_⟩
    · omega
    · omega
    · rw [sub_add_cancel]
      exact lt_of_not_ge short

variable {x : Ieee} (finite : x.isFinite = true) (nonzero : x.isZero = false)

include nonzero in
theorem size_ratio : 0 < x.vicinity.centre ∧ (x.vicinity.centre : ℚ) / x.vicinity.unit = x.size :=
  ⟨Nat.mul_pos (Nat.mul_pos (by norm_num) (mantissa_pos nonzero)) (Nat.two_pow_pos _),
    mid_vicinity x⟩

include finite nonzero in
theorem decade_size : (10 : ℚ) ^ decade x.vicinity.centre x.vicinity.unit ≤ x.size ∧
    x.size < 10 ^ (decade x.vicinity.centre x.vicinity.unit + 1) := by
  obtain ⟨positive, ratio⟩ := size_ratio nonzero
  obtain ⟨low, high⟩ := binade_spec positive x.unit_pos
  obtain ⟨least, greatest⟩ := exponent_bounds finite
  rw [ratio] at low high
  have above : (2 : ℚ) ^ x.exponent < 2 ^ (binade x.vicinity.centre x.vicinity.unit + 1) :=
    (step_le_size nonzero).trans_lt high
  have below : (2 : ℚ) ^ binade x.vicinity.centre x.vicinity.unit < 2 ^ (53 + x.exponent) := by
    rw [zpow_add₀ (by norm_num)]
    exact low.trans_lt x.size_lt
  have above := (zpow_lt_zpow_iff_right₀ (by norm_num)).1 above
  have below := (zpow_lt_zpow_iff_right₀ (by norm_num)).1 below
  rw [← ratio]
  exact decade_spec positive x.unit_pos (by omega)

include finite nonzero in
theorem exists_contains_seventeen :
    ∃ n : ℕ, x.vicinity.Contains (n * 10 ^ (decade x.vicinity.centre x.vicinity.unit - 16)) := by
  refine Vicinity.exists_contains (proper_vicinity nonzero) ?_
  have low := (decade_size finite nonzero).1
  have positive := x.step_pos
  rw [low_vicinity nonzero, high_vicinity, zpow_sub₀ (by norm_num), slack]
  split
  · next narrow =>
    have mantissa : x.mantissa ≤ 2 ^ 52 := by
      rw [narrow.1]
      exact Nat.pow_le_pow_right (by norm_num) (fractionBits_le _)
    have mantissa : (x.mantissa : ℚ) ≤ 2 ^ 52 := by exact_mod_cast mantissa
    have size : x.size ≤ 2 ^ 52 * x.step := mul_le_mul_of_nonneg_right mantissa positive.le
    norm_num at size ⊢
    linarith
  · have size := x.size_lt
    norm_num at size ⊢
    linarith

def ShortDecimal.toRat (d : ShortDecimal) : ℚ :=
  d.coefficient * 10 ^ d.exponent

theorem shortest_eq (tie : Tie) (x : Ieee) :
    x.shortest tie = x.vicinity.search tie 17 (decade x.vicinity.centre x.vicinity.unit) :=
  rfl

include finite nonzero in
theorem contains_shortest (tie : Tie) : x.vicinity.Contains (x.shortest tie).toRat := by
  have proper := proper_vicinity nonzero
  obtain ⟨n, inside⟩ := exists_contains_seventeen finite nonzero
  rw [shortest_eq]
  generalize decade x.vicinity.centre x.vicinity.unit = k at *
  have found : x.vicinity.point? tie (k - 16) ≠ none := Vicinity.point?_ne_none proper inside
  obtain ⟨reached, -⟩ := Vicinity.search_found 17 (k := k) (by push_cast; omega) (by omega) found
  exact Vicinity.contains_of_point? proper.unit_pos reached

include finite nonzero in
theorem shortest_of_integer (tie : Tie) {n : ℕ} (whole : x.size = n) (few : n < 10 ^ 17) :
    0 ≤ (x.shortest tie).exponent ∧
      ((x.shortest tie).exponent = 0 → (x.shortest tie).toRat = x.size) := by
  have proper := proper_vicinity nonzero
  have mid : x.vicinity.mid = n * 10 ^ (0 : ℤ) := by rw [mid_vicinity, whole, zpow_zero, mul_one]
  have here := Vicinity.point?_mid tie proper mid
  obtain ⟨low, high⟩ := decade_size finite nonzero
  have least : (1 : ℚ) ≤ x.size := by
    have positive := size_pos nonzero
    rw [whole] at positive ⊢
    exact_mod_cast positive
  have greatest : x.size < 10 ^ (17 : ℤ) := by
    rw [whole]
    exact_mod_cast few
  rw [shortest_eq]
  generalize decade x.vicinity.centre x.vicinity.unit = k at *
  have first : 0 < k + 1 := by
    rw [← zpow_lt_zpow_iff_right₀ (by norm_num : (1 : ℚ) < 10), zpow_zero]
    exact least.trans_lt high
  have last : k < 17 := by
    rw [← zpow_lt_zpow_iff_right₀ (by norm_num : (1 : ℚ) < 10)]
    exact low.trans_lt greatest
  obtain ⟨found, coarse⟩ := Vicinity.search_found 17 (k := k) (j := 0) (by push_cast; omega)
    (by omega) (here ▸ Option.some_ne_none n)
  refine ⟨coarse, fun units => ?_⟩
  rw [units, here, Option.some_inj] at found
  rw [ShortDecimal.toRat, units, ← found, zpow_zero, mul_one, whole]

include finite nonzero in
theorem near_shortest (tie : Tie) : |(x.shortest tie).toRat - x.size| ≤ x.step / 2 :=
  near_of_contains nonzero (contains_shortest finite nonzero tie)

include finite nonzero in
theorem shortest_exact (tie : Tie) (small : x.exponent ≤ 1) {n : ℕ}
    (whole : (x.shortest tie).toRat = n) : (n : ℚ) = x.size := by
  have near := near_shortest finite nonzero tie
  rw [whole] at near
  rcases Int.lt_or_eq_of_le small with fine | two
  · obtain ⟨j, multiple⟩ := natCast_multiple n (x := x) (by omega)
    exact eq_size_of_near multiple near
  have step : x.step = 2 := by rw [step, two, zpow_one]
  have even : x.size = (2 * x.mantissa : ℕ) := by
    rw [size, step]
    push_cast
    ring
  obtain ⟨coarse, units⟩ :=
    shortest_of_integer finite nonzero tie even (lt_of_exponent_le_one small even)
  -- On the grid of the integers the number is found itself, and on a coarser one all is even.
  rcases Int.lt_or_eq_of_le coarse with tens | here
  · obtain ⟨k, made⟩ : ∃ k : ℕ, (x.shortest tie).exponent = (k : ℤ) + 1 :=
      ⟨((x.shortest tie).exponent - 1).toNat, by omega⟩
    have multiple : (n : ℚ) = ((x.shortest tie).coefficient * 10 ^ k * 5 : ℕ) * x.step := by
      rw [← whole, ShortDecimal.toRat, made, zpow_add_one₀ (by norm_num), zpow_natCast, step]
      push_cast
      ring
    exact eq_size_of_near multiple near
  · rw [← whole]
    exact units here.symm

end Criteria.Ieee
