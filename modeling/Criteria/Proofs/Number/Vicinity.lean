import Criteria.Number.Ieee.Shortest
import Mathlib.Algebra.Order.Field.Power
import Mathlib.Data.Nat.Cast.Order.Field
import Mathlib.Tactic.FieldSimp
import Mathlib.Tactic.Linarith
import Mathlib.Tactic.NormNum
import Mathlib.Tactic.Positivity
import Mathlib.Tactic.Ring

set_option autoImplicit false

namespace Criteria.Ieee

-- Powers are the core library's, whichever instances are in scope besides.
attribute [local instance (high)] instPowNat

section Ratio

variable {b : ℕ} {num den : ℕ}

theorem zpow_eq_div (b : ℚ) (k : ℤ) : b ^ k = b ^ k.toNat / b ^ (-k).toNat := by
  rcases Int.le_total 0 k with positive | negative
  · obtain ⟨n, rfl⟩ := Int.eq_ofNat_of_zero_le positive
    simp
  · obtain ⟨n, made⟩ := Int.eq_ofNat_of_zero_le (Int.neg_nonneg_of_nonpos negative)
    obtain rfl : k = -(n : ℤ) := by omega
    simp

theorem zpow_le_ratio_iff (base : 0 < b) (positive : 0 < den) (k : ℤ) :
    (b : ℚ) ^ k ≤ (num : ℚ) / den ↔ den * b ^ k.toNat ≤ num * b ^ (-k).toNat := by
  have base : (0 : ℚ) < b := by exact_mod_cast base
  have positive : (0 : ℚ) < den := by exact_mod_cast positive
  rw [zpow_eq_div, div_le_div_iff₀ (by positivity) positive, mul_comm]
  exact_mod_cast Iff.rfl

theorem ratio_div_zpow (b num den : ℕ) (k : ℤ) : (num : ℚ) / den / b ^ k =
    ((num * b ^ (-k).toNat : ℕ) : ℚ) / (den * b ^ k.toNat : ℕ) := by
  rw [zpow_eq_div]
  push_cast
  rw [div_div_div_eq]

theorem ratio_lt_div_succ (positive : 0 < den) : (num : ℚ) / den < (num / den : ℕ) + 1 := by
  have positive' : (0 : ℚ) < den := by exact_mod_cast positive
  rw [div_lt_iff₀ positive']
  exact_mod_cast Nat.lt_mul_of_div_lt (Nat.lt_succ_self _) positive

end Ratio

namespace Vicinity

variable {v : Vicinity} {tie : Tie} {c : ℕ} {k : ℤ} {r s : ℚ}

def low (v : Vicinity) : ℚ :=
  v.lower / v.unit

def mid (v : Vicinity) : ℚ :=
  v.centre / v.unit

def high (v : Vicinity) : ℚ :=
  v.upper / v.unit

def Contains (v : Vicinity) (r : ℚ) : Prop :=
  if v.closed then v.low ≤ r ∧ r ≤ v.high else v.low < r ∧ r < v.high

structure Proper (v : Vicinity) : Prop where
  unit_pos : 0 < v.unit
  low_lt : v.low < v.mid
  lt_high : v.mid < v.high

theorem Contains.bounds (inside : v.Contains r) : v.low ≤ r ∧ r ≤ v.high := by
  unfold Contains at inside
  split at inside
  · exact inside
  · exact ⟨inside.1.le, inside.2.le⟩

theorem contains_of_lt (above : v.low < r) (below : r < v.high) : v.Contains r := by
  unfold Contains
  split
  · exact ⟨above.le, below.le⟩
  · exact ⟨above, below⟩

theorem Proper.contains_mid (proper : v.Proper) : v.Contains v.mid :=
  contains_of_lt proper.low_lt proper.lt_high

theorem Contains.between {t : ℚ} (inside : v.Contains r) (inside' : v.Contains t) (first : r ≤ s)
    (second : s ≤ t) : v.Contains s := by
  unfold Contains at *
  by_cases closed : v.closed
  · rw [if_pos closed] at *
    exact ⟨inside.1.trans first, second.trans inside'.2⟩
  · rw [if_neg closed] at *
    exact ⟨inside.1.trans_le first, second.trans_lt inside'.2⟩

theorem holds_iff (positive : 0 < v.unit) (c : ℕ) (k : ℤ) :
    v.holds c k = true ↔ v.Contains (c * 10 ^ k) := by
  have unit : (0 : ℚ) < v.unit := by exact_mod_cast positive
  have scale : (0 : ℚ) < 10 ^ (-k).toNat := by positivity
  have point : (c : ℚ) * 10 ^ k = c * 10 ^ k.toNat / 10 ^ (-k).toNat := by
    rw [zpow_eq_div, mul_div_assoc]
  have arrange : (c : ℚ) * 10 ^ k.toNat * v.unit = (c * v.unit * 10 ^ k.toNat : ℕ) := by
    push_cast
    ring
  have lower : v.low ≤ c * 10 ^ k ↔
      v.lower * 10 ^ (-k).toNat ≤ c * v.unit * 10 ^ k.toNat := by
    rw [point, low, div_le_div_iff₀ unit scale, arrange]
    exact_mod_cast Iff.rfl
  have lower' : v.low < c * 10 ^ k ↔
      v.lower * 10 ^ (-k).toNat < c * v.unit * 10 ^ k.toNat := by
    rw [point, low, div_lt_div_iff₀ unit scale, arrange]
    exact_mod_cast Iff.rfl
  have upper : c * 10 ^ k ≤ v.high ↔
      c * v.unit * 10 ^ k.toNat ≤ v.upper * 10 ^ (-k).toNat := by
    rw [point, high, div_le_div_iff₀ scale unit, arrange]
    exact_mod_cast Iff.rfl
  have upper' : c * 10 ^ k < v.high ↔
      c * v.unit * 10 ^ k.toNat < v.upper * 10 ^ (-k).toNat := by
    rw [point, high, div_lt_div_iff₀ scale unit, arrange]
    exact_mod_cast Iff.rfl
  unfold holds Contains
  split <;> simp [lower, lower', upper, upper']

def below (v : Vicinity) (k : ℤ) : ℕ :=
  v.centre * 10 ^ (-k).toNat / (v.unit * 10 ^ k.toNat)

theorem mid_div (k : ℤ) :
    v.mid / 10 ^ k = ((v.centre * 10 ^ (-k).toNat : ℕ) : ℚ) / (v.unit * 10 ^ k.toNat : ℕ) :=
  ratio_div_zpow 10 v.centre v.unit k

theorem below_le (v : Vicinity) (k : ℤ) : v.below k * 10 ^ k ≤ v.mid := by
  rw [← le_div_iff₀ (by positivity), mid_div]
  exact Nat.cast_div_le

theorem lt_below_succ (positive : 0 < v.unit) (k : ℤ) : v.mid < (v.below k + 1) * 10 ^ k := by
  rw [← div_lt_iff₀ (by positivity), mid_div]
  exact ratio_lt_div_succ (by positivity)

theorem le_below {n : ℕ} (positive : 0 < v.unit) (small : n * 10 ^ k ≤ v.mid) : n ≤ v.below k := by
  have grid : (0 : ℚ) < 10 ^ k := by positivity
  have step := lt_of_mul_lt_mul_right (small.trans_lt (lt_below_succ positive k)) grid.le
  have step : n < v.below k + 1 := by exact_mod_cast step
  omega

theorem point?_cases (v : Vicinity) (tie : Tie) (k : ℤ) :
    (∃ c, v.point? tie k = some c ∧ v.holds c k = true) ∨
      v.point? tie k = none ∧ v.holds (v.below k) k = false ∧
        v.holds (v.below k + 1) k = false := by
  unfold point?
  dsimp only
  split
  · next first second => exact .inr ⟨rfl, first, second⟩
  · next first second => exact .inl ⟨_, rfl, first⟩
  · next first second => exact .inl ⟨_, rfl, second⟩
  · next first second =>
    left
    split
    · exact ⟨_, rfl, first⟩
    split
    · exact ⟨_, rfl, second⟩
    cases tie with
    | up => exact ⟨_, rfl, second⟩
    | even =>
      refine ⟨_, rfl, ?_⟩
      change v.holds (v.below k + v.below k % 2) k = true
      rcases Nat.mod_two_eq_zero_or_one (v.below k) with even | odd
      · rw [even]
        exact first
      · rw [odd]
        exact second

theorem contains_of_point? (positive : 0 < v.unit) (found : v.point? tie k = some c) :
    v.Contains (c * 10 ^ k) := by
  rw [← holds_iff positive]
  rcases v.point?_cases tie k with ⟨c', found', inside⟩ | ⟨nothing, -⟩
  · rw [found] at found'
    cases found'
    exact inside
  · rw [nothing] at found
    cases found

theorem point?_ne_none {n : ℕ} (proper : v.Proper) (inside : v.Contains (n * 10 ^ k)) :
    v.point? tie k ≠ none := by
  have grid : (0 : ℚ) < 10 ^ k := by positivity
  rcases v.point?_cases tie k with ⟨c, found, -⟩ | ⟨-, first, second⟩
  · simp [found]
  · exfalso
    simp only [← Bool.not_eq_true, holds_iff proper.unit_pos] at first second
    rcases le_or_gt ((n : ℚ) * 10 ^ k) v.mid with before | after
    · have fits : (n : ℚ) ≤ v.below k := by exact_mod_cast le_below proper.unit_pos before
      exact first (inside.between proper.contains_mid (by gcongr) (v.below_le k))
    · have fits : (v.below k : ℚ) < n :=
        lt_of_mul_lt_mul_right ((v.below_le k).trans_lt after) grid.le
      have fits : v.below k + 1 ≤ n := by exact_mod_cast fits
      have fits : ((v.below k + 1 : ℕ) : ℚ) ≤ n := by exact_mod_cast fits
      refine second (proper.contains_mid.between inside ?_ (by gcongr))
      push_cast
      exact (lt_below_succ proper.unit_pos k).le

theorem point?_mid (tie : Tie) {n : ℕ} (proper : v.Proper) (exact : v.mid = n * 10 ^ k) :
    v.point? tie k = some n := by
  have positive : 0 < v.unit * 10 ^ k.toNat := Nat.mul_pos proper.unit_pos (by positivity)
  have whole : v.centre * 10 ^ (-k).toNat = n * (v.unit * 10 ^ k.toNat) := by
    have ratio := mid_div (v := v) k
    rw [exact, mul_div_cancel_right₀ _ (by positivity),
      eq_div_iff (by exact_mod_cast positive.ne')] at ratio
    exact_mod_cast ratio.symm
  have first : v.holds n k = true :=
    (holds_iff proper.unit_pos n k).2 (exact ▸ proper.contains_mid)
  simp only [point?, whole, Nat.mul_div_cancel _ positive, Nat.mul_mod_left, first, Nat.mul_zero,
    positive, if_true]
  cases v.holds (n + 1) k <;> rfl

theorem exists_contains (proper : v.Proper) (fine : v.low + 10 ^ k < v.high) :
    ∃ n : ℕ, v.Contains (n * 10 ^ k) := by
  have before := v.below_le k
  have after := lt_below_succ proper.unit_pos k
  have low := proper.low_lt
  have high := proper.lt_high
  rcases lt_or_ge v.low (v.below k * 10 ^ k) with above | outside
  · exact ⟨v.below k, contains_of_lt above (before.trans_lt high)⟩
  · refine ⟨v.below k + 1, ?_⟩
    push_cast
    exact contains_of_lt (by linarith) (by linarith)

theorem search_found (tries : ℕ) {j : ℤ} (reached : k - tries < j) (started : j ≤ k)
    (found : v.point? tie j ≠ none) :
    v.point? tie (v.search tie tries k).exponent = some (v.search tie tries k).coefficient ∧
      j ≤ (v.search tie tries k).exponent := by
  induction tries generalizing k with
  | zero => omega
  | succ tries ih =>
    rw [search]
    split
    · next c here => exact ⟨here, started⟩
    · next nothing =>
      have later : j ≠ k := by
        rintro rfl
        exact found nothing
      exact ih (by push_cast at reached; omega) (by omega)

end Vicinity

end Criteria.Ieee
