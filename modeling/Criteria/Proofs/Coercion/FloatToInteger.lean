import Criteria.Proofs.Coercion.ThroughText
import Criteria.Proofs.Number.FloatText

set_option autoImplicit false

namespace Criteria

-- Powers are the core library's, whichever instances are in scope besides.
attribute [local instance (high)] instPowNat

open Numeral (readInt? readNat?)

namespace Ieee

variable {x : Ieee}

theorem near_of_readInt? (finite : x.isFinite = true) {i : ℤ} (read : readInt? x.text = some i) :
    |(i : ℚ) - x.toRat| ≤ x.step / 2 ∧ ofRatio x.precision x.negative i.natAbs 1 = x := by
  rw [readInt?_text finite, Option.map_eq_some_iff] at read
  obtain ⟨n, read, rfl⟩ := read
  obtain ⟨near, rounds, -⟩ := readNat?_sizeText finite read
  unfold toRat
  split
  · rw [Int.cast_neg, Int.cast_natCast, neg_sub_neg, abs_sub_comm, Int.natAbs_neg,
      Int.natAbs_natCast]
    exact ⟨near, rounds⟩
  · rw [Int.cast_natCast, Int.natAbs_natCast]
    exact ⟨near, rounds⟩

theorem exists_natCast {i : ℤ} {r : ℚ} (positive : 0 ≤ r) (whole : (i : ℚ) = r) :
    ∃ n : ℕ, i = n ∧ (n : ℚ) = r := by
  rw [← whole] at positive
  obtain ⟨n, rfl⟩ := Int.eq_ofNat_of_zero_le (Int.cast_nonneg_iff.1 positive)
  exact ⟨n, rfl, whole⟩

theorem readInt?_text_eq_some_iff (finite : x.isFinite = true) (small : x.exponent ≤ 1) {i : ℤ} :
    readInt? x.text = some i ↔ (i : ℚ) = x.toRat := by
  have positive := x.size_nonneg
  have read_iff (n : ℕ) : readNat? x.sizeText = some n ↔ (n : ℚ) = x.size :=
    ⟨fun read => (readNat?_sizeText finite read).2.2 small,
      fun whole => readNat?_sizeText_of_whole finite small whole.symm⟩
  rw [readInt?_text finite, Option.map_eq_some_iff]
  simp only [read_iff]
  unfold toRat
  split
  · constructor
    · rintro ⟨n, whole, rfl⟩
      rw [Int.cast_neg, Int.cast_natCast, whole]
    · intro whole
      have whole : ((-i : ℤ) : ℚ) = x.size := by rw [Int.cast_neg, whole, neg_neg]
      obtain ⟨n, made, whole⟩ := exists_natCast positive whole
      exact ⟨n, whole, by omega⟩
  · constructor
    · rintro ⟨n, whole, rfl⟩
      rw [Int.cast_natCast, whole]
    · intro whole
      obtain ⟨n, rfl, whole⟩ := exists_natCast positive whole
      exact ⟨n, whole, rfl⟩

theorem exponent_le_one_of_fits {n : SizedInt} (few : n.width.bits ≤ x.precision.fractionBits + 2)
    (near : |(n.value : ℚ) - x.toRat| ≤ x.step / 2) : x.exponent ≤ 1 := by
  have near := (abs_abs_sub_abs_le (n.value : ℚ) x.toRat).trans near
  rw [abs_toRat] at near
  refine exponent_le_one_of_near near ?_
  have fits : |n.value| ≤ 2 ^ (n.width.bits - 1) := abs_le.2 ⟨n.holds.1, n.holds.2.le⟩
  have room : (2 : ℤ) ^ (n.width.bits - 1) ≤ 2 ^ (x.precision.fractionBits + 1) :=
    pow_le_pow_right₀ (by norm_num) (by omega)
  exact_mod_cast fits.trans room

end Ieee

namespace CoercionRegistry

theorem coerce_float_eq_ok_iff {x : Ieee} (finite : x.isFinite = true) {w : IntWidth} {v : Value} :
    seeded.coerce (some (.int w)) (.float x) = .ok v ↔
      ∃ n : SizedInt, v = .int n ∧ n.width = w ∧ readInt? x.text = some n.value := by
  have shown : ValueParser.nonBlankText (.float x) (ValueParser.intTarget w) = .ok x.text := by
    simp [ValueParser.nonBlankText, Value.isNull, Value.scalarText?, Ieee.not_blank_text finite]
  have differs : (Value.float x).satisfies (.int w) = false := by
    simp [Value.satisfies, Value.key?]
  rw [coerce_seeded rfl differs rfl, ValueParser.int, ValueParser.reading, differs, shown]
  simp only [Bool.false_eq_true, if_false]
  constructor
  · intro accepted
    split at accepted
    · next u read =>
      cases accepted
      obtain ⟨n, sized, rfl⟩ := Option.map_eq_some_iff.1 read
      exact ⟨n, rfl, SizedInt.read?_eq_some_iff.1 sized⟩
    · cases accepted
  · rintro ⟨n, rfl, read⟩
    rw [SizedInt.read?_eq_some_iff.2 read, Option.map_some]

/-- A finite number is coerced only to an integer that rounds to it. If the integers have at most
two bits more than the fraction, or the number does, it is coerced exactly to the integer that
it is. -/
theorem coerce_float_to_int {x : Ieee} (finite : x.isFinite = true) (w : IntWidth) :
    (∀ v, seeded.coerce (some (.int w)) (.float x) = .ok v →
      ∃ n : SizedInt, v = .int n ∧ n.width = w ∧ |(n.value : ℚ) - x.toRat| ≤ x.step / 2 ∧
        Ieee.ofRatio x.precision x.negative n.value.natAbs 1 = x) ∧
    (w.bits ≤ x.precision.fractionBits + 2 ∨ |x.toRat| < 2 ^ (x.precision.fractionBits + 2) →
      ∀ n : SizedInt, n.width = w →
        (seeded.coerce (some (.int w)) (.float x) = .ok (.int n) ↔ (n.value : ℚ) = x.toRat)) := by
  constructor
  · intro v accepted
    obtain ⟨n, rfl, width, read⟩ := (coerce_float_eq_ok_iff finite).1 accepted
    exact ⟨n, rfl, width, Ieee.near_of_readInt? finite read⟩
  · rintro few n rfl
    have small (near : |(n.value : ℚ) - x.toRat| ≤ x.step / 2) : x.exponent ≤ 1 := by
      rcases few with few | few
      · exact Ieee.exponent_le_one_of_fits few near
      · exact Ieee.exponent_le_one (x.abs_toRat ▸ few)
    constructor
    · intro accepted
      obtain ⟨m, made, -, read⟩ := (coerce_float_eq_ok_iff finite).1 accepted
      cases made
      have small := small (Ieee.near_of_readInt? finite read).1
      exact (Ieee.readInt?_text_eq_some_iff finite small).1 read
    · intro whole
      have near : |(n.value : ℚ) - x.toRat| ≤ x.step / 2 := by
        rw [whole, sub_self, abs_zero]
        linarith [x.step_pos]
      have read := (Ieee.readInt?_text_eq_some_iff finite (small near)).2 whole
      exact (coerce_float_eq_ok_iff finite).2 ⟨n, rfl, rfl, read⟩

def lastExact : Ieee :=
  Ieee.ofBits .double 0x434fffffffffffff

theorem lastExact_coerced :
    lastExact.isFinite = true ∧ |lastExact.toRat| < 2 ^ (lastExact.precision.fractionBits + 2) ∧
      seeded.coerce (some (.int .long)) (.float lastExact) =
        .ok (.int ⟨.long, 18014398509481982, by decide⟩) := by
  have finite : lastExact.isFinite = true := by decide
  have number : lastExact.toRat = 18014398509481982 := by
    have mantissa : lastExact.mantissa = 9007199254740991 := by decide
    have exponent : lastExact.exponent = 1 := by decide
    have positive : lastExact.negative = false := by decide
    rw [Ieee.toRat, positive, Ieee.size, Ieee.step, mantissa, exponent]
    norm_num
  have small : |lastExact.toRat| < 2 ^ (lastExact.precision.fractionBits + 2) := by
    have precision : lastExact.precision.fractionBits = 52 := by decide
    rw [number, precision]
    norm_num
  refine ⟨finite, small, ((coerce_float_to_int finite .long).2 (.inr small) _ rfl).2 ?_⟩
  rw [number]
  norm_num

def twoToSixty : Ieee :=
  Ieee.ofBits .double 0x43b0000000000000

theorem twoToSixty_moved :
    twoToSixty.isFinite = true ∧ twoToSixty.toRat = 2 ^ 60 ∧
      seeded.coerce (some (.int .long)) (.float twoToSixty) =
        .ok (.int ⟨.long, 2 ^ 60 + 24, by decide⟩) := by
  have finite : twoToSixty.isFinite = true := by decide
  have read : readInt? twoToSixty.text = some (2 ^ 60 + 24) := by decide +kernel
  refine ⟨finite, ?_, (coerce_float_eq_ok_iff finite).2 ⟨_, rfl, rfl, read⟩⟩
  have mantissa : twoToSixty.mantissa = 2 ^ 52 := by decide
  have exponent : twoToSixty.exponent = 8 := by decide
  have positive : twoToSixty.negative = false := by decide
  rw [Ieee.toRat, positive, Ieee.size, Ieee.step, mantissa, exponent]
  norm_num

end CoercionRegistry

end Criteria
