import Criteria.Number.Ieee.Text
import Criteria.Proofs.Number.Digits
import Criteria.Proofs.Number.ReadBack
import Criteria.Proofs.Number.Shortest
import Mathlib.Data.List.DropRight

set_option autoImplicit false

namespace Criteria.Ieee

-- Powers are the core library's, whichever instances are in scope besides.
attribute [local instance (high)] instPowNat

open Numeral (AllDigits allDigits_digits allDigits_zeros readNat? readInt?)

theorem exists_zeros (run : List Char) :
    ∃ count, run = dropTrailingZeros run ++ List.replicate count '0' := by
  refine ⟨(run.rtakeWhile (· == '0')).length, ?_⟩
  have zeros : run.rtakeWhile (· == '0') =
      List.replicate (run.rtakeWhile (· == '0')).length '0' := by
    refine List.eq_replicate_of_mem fun c listed => ?_
    simpa using List.mem_rtakeWhile_imp listed
  rw [← zeros]
  exact List.rdropWhile_append_rtakeWhile.symm

theorem allDigits_dropTrailingZeros {run : List Char} (digits : AllDigits run) :
    AllDigits (dropTrailingZeros run) := by
  obtain ⟨count, parts⟩ := exists_zeros run
  refine digits.of_subset fun c listed => ?_
  rw [parts]
  exact List.mem_append_left _ listed

theorem mem_positional {run : List Char} {places : ℤ} {c : Char} (digits : AllDigits run)
    (listed : c ∈ positional run places) : c.isDigit = true ∨ c = '.' := by
  unfold positional at listed
  split at listed
  · simp only [List.cons_append, List.mem_cons, List.mem_append] at listed
    rcases listed with rfl | rfl | zero | listed
    · exact .inl rfl
    · exact .inr rfl
    · exact .inl (allDigits_zeros _ c zero)
    · exact .inl (digits c listed)
  split at listed
  · exact .inl ((digits.append (allDigits_zeros _)) c listed)
  · rcases List.mem_append.1 listed with whole | rest
    · exact .inl (digits c (List.mem_of_mem_take whole))
    · rcases List.mem_cons.1 rest with rfl | fraction
      · exact .inr rfl
      · exact .inl (digits c (List.mem_of_mem_drop fraction))

namespace ShortDecimal

variable {d : ShortDecimal}

def text (d : ShortDecimal) : List Char :=
  positional d.layout.1 d.layout.2

theorem text_cases (d : ShortDecimal) :
    '.' ∈ d.text ∧ d.exponent < 0 ∨
      AllDigits d.text ∧ d.text ≠ [] ∧ (Numeral.value d.text : ℚ) = d.toRat := by
  obtain ⟨count, parts⟩ := exists_zeros (Numeral.digits d.coefficient)
  have number := congrArg Numeral.value parts
  have length := congrArg List.length parts
  have some : 0 < (Numeral.digits d.coefficient).length :=
    List.length_pos_iff.2 (Numeral.digits_ne_nil _)
  have digits := allDigits_dropTrailingZeros (allDigits_digits d.coefficient)
  rw [Numeral.value_digits, Numeral.value_append_zeros] at number
  rw [List.length_append, List.length_replicate] at length
  unfold text layout
  dsimp only
  generalize Numeral.digits d.coefficient = full at *
  generalize dropTrailingZeros full = run at *
  unfold positional
  split
  · exact .inl ⟨by simp, by omega⟩
  split
  · right
    have zeros : (((full.length : ℤ) + d.exponent).toNat - run.length : ℕ) =
        (count : ℤ) + d.exponent := by omega
    generalize ((full.length : ℤ) + d.exponent).toNat - run.length = places at *
    refine ⟨digits.append (allDigits_zeros places), ?_, ?_⟩
    · intro empty
      have lengths := congrArg List.length empty
      simp only [List.length_append, List.length_replicate, List.length_nil] at lengths
      omega
    · rw [Numeral.value_append_zeros, toRat, number]
      push_cast
      rw [mul_assoc, ← zpow_natCast, ← zpow_natCast, zeros, zpow_add₀ (by norm_num)]
  · exact .inl ⟨by simp, by omega⟩

theorem mem_text {c : Char} (listed : c ∈ d.text) : c.isDigit = true ∨ c = '.' :=
  mem_positional (allDigits_dropTrailingZeros (allDigits_digits _)) listed

theorem text_ne_nil (d : ShortDecimal) : d.text ≠ [] := by
  rcases d.text_cases with ⟨point, -⟩ | ⟨-, notEmpty, -⟩
  · exact List.ne_nil_of_mem point
  · exact notEmpty

theorem readNat?_text {n : ℕ} (read : readNat? d.text = some n) : (n : ℚ) = d.toRat := by
  unfold readNat? at read
  split at read
  · next ready =>
    cases read
    rcases d.text_cases with ⟨point, -⟩ | ⟨-, -, number⟩
    · have digit := List.all_eq_true.1 ready.2 '.' point
      cases digit
    · exact number
  · cases read

theorem readNat?_text_of_exponent (coarse : 0 ≤ d.exponent) : ∃ n, readNat? d.text = some n := by
  rcases d.text_cases with ⟨-, fine⟩ | ⟨digits, notEmpty, -⟩
  · omega
  · exact ⟨_, Numeral.readNat?_eq_some digits notEmpty⟩

end ShortDecimal

theorem readInt?_unsigned {s : List Char} (plain : ∀ c ∈ s, c.isDigit = true ∨ c = '.') :
    readInt? s = (readNat? s).map fun n : ℕ => (n : ℤ) := by
  unfold readInt?
  split
  · exact absurd (plain '-' List.mem_cons_self) (by decide)
  · exact absurd (plain '+' List.mem_cons_self) (by decide)
  · rfl

variable {x : Ieee}

def sizeText (x : Ieee) : List Char :=
  if x.isZero then ['0'] else (x.shortest .up).text

theorem text_of_finite (finite : x.isFinite = true) :
    x.text = if x.negative then '-' :: x.sizeText else x.sizeText := by
  have finite : x.magnitude < x.precision.infinityBits := by simpa [isFinite] using finite
  have notNaN : x.isNaN = false := by simpa [isNaN] using finite.le
  have notInfinite : x.isInfinite = false := by simpa [isInfinite] using finite.ne
  unfold text sizeText
  simp only [notNaN, notInfinite]
  cases x.negative <;> cases x.isZero <;> rfl

theorem mem_sizeText {c : Char} (listed : c ∈ x.sizeText) : c.isDigit = true ∨ c = '.' := by
  unfold sizeText at listed
  split at listed
  · rw [List.mem_singleton.1 listed]
    exact .inl rfl
  · exact ShortDecimal.mem_text listed

theorem sizeText_ne_nil (x : Ieee) : x.sizeText ≠ [] := by
  unfold sizeText
  split
  · exact List.cons_ne_nil _ _
  · exact ShortDecimal.text_ne_nil _

theorem not_blank_text (finite : x.isFinite = true) : Text.allBlank x.text = false := by
  obtain ⟨c, rest, made⟩ := List.exists_cons_of_ne_nil x.sizeText_ne_nil
  have shown : Text.isBlank c = false := by
    rcases mem_sizeText (x := x) (c := c) (by simp [made]) with digit | rfl
    · exact Text.not_isBlank_of_isDigit digit
    · decide
  refine Text.allBlank_eq_false (c := c) ?_ shown
  rw [text_of_finite finite]
  split <;> simp [made]

theorem readInt?_text (finite : x.isFinite = true) : readInt? x.text =
    (readNat? x.sizeText).map fun n : ℕ => if x.negative then -(n : ℤ) else n := by
  rw [text_of_finite finite]
  split
  · rfl
  · exact readInt?_unsigned fun c listed => mem_sizeText listed

theorem readNat?_sizeText (finite : x.isFinite = true) {n : ℕ}
    (read : readNat? x.sizeText = some n) :
    |(n : ℚ) - x.size| ≤ x.step / 2 ∧ ofRatio x.precision x.negative n 1 = x ∧
      (x.exponent ≤ 1 → (n : ℚ) = x.size) := by
  cases zero : x.isZero with
  | true =>
    have text : x.sizeText = ['0'] := by simp [sizeText, zero]
    have read : n = 0 := by
      rw [text] at read
      exact (Option.some_inj.1 read).symm
    subst read
    have size := size_of_isZero zero
    have magnitude : x.magnitude = 0 := by simpa [isZero] using zero
    refine ⟨?_, ?_, fun _ => by rw [size, Nat.cast_zero]⟩
    · rw [size, Nat.cast_zero, sub_zero, abs_zero]
      linarith [x.step_pos]
    · rw [ofRatio, nearestMagnitude, if_pos rfl, ← magnitude, ofMagnitude_magnitude]
  | false =>
    have text : x.sizeText = (x.shortest .up).text := by simp [sizeText, zero]
    rw [text] at read
    have whole := (ShortDecimal.readNat?_text read).symm
    have inside := contains_shortest finite zero .up
    have near := near_shortest finite zero .up
    rw [whole] at inside near
    refine ⟨near, ofRatio_of_contains finite zero Nat.one_pos ?_, fun small => ?_⟩
    · rwa [Nat.cast_one, div_one]
    · exact shortest_exact finite zero .up small whole

theorem readNat?_sizeText_of_whole (finite : x.isFinite = true) (small : x.exponent ≤ 1) {n : ℕ}
    (whole : x.size = n) : readNat? x.sizeText = some n := by
  suffices read : ∃ m, readNat? x.sizeText = some m by
    obtain ⟨m, read⟩ := read
    have same := (readNat?_sizeText finite read).2.2 small
    rw [whole] at same
    rw [read, Nat.cast_injective same]
  cases zero : x.isZero with
  | true => exact ⟨0, by simp [sizeText, zero]; rfl⟩
  | false =>
    have few := lt_of_exponent_le_one small whole
    obtain ⟨coarse, -⟩ := shortest_of_integer finite zero .up whole few
    rw [sizeText, zero]
    exact ShortDecimal.readNat?_text_of_exponent coarse

end Criteria.Ieee
