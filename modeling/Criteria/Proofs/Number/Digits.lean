import Criteria.Number.Numeral
import Criteria.Text.Blank

set_option autoImplicit false

namespace Criteria

-- Powers are the core library's, whichever instances are in scope besides.
attribute [local instance (high)] instPowNat

namespace Numeral

def AllDigits (run : List Char) : Prop :=
  ∀ c ∈ run, c.isDigit = true

theorem AllDigits.append {a b : List Char} (first : AllDigits a) (second : AllDigits b) :
    AllDigits (a ++ b) :=
  List.forall_mem_append.2 ⟨first, second⟩

theorem AllDigits.of_subset {a b : List Char} (digits : AllDigits b) (within : a ⊆ b) :
    AllDigits a :=
  fun c listed => digits c (within listed)

theorem AllDigits.takeWhile_append {run rest : List Char} (digits : AllDigits run)
    (stops : ∀ c ∈ rest.head?, c.isDigit = false) :
    (run ++ rest).takeWhile Char.isDigit = run := by
  rw [List.takeWhile_append_of_pos digits]
  cases rest with
  | nil => simp
  | cons c rest => simp [stops c rfl]

theorem allDigits_digits (n : Nat) : AllDigits (digits n) :=
  fun _ listed => isDigit_of_mem_digits listed

theorem allDigits_zeros (count : Nat) : AllDigits (List.replicate count '0') := by
  intro c listed
  rw [List.eq_of_mem_replicate listed]
  rfl

theorem allDigits_padded (width n : Nat) : AllDigits (padded width n) :=
  (allDigits_zeros _).append (allDigits_digits n)

theorem value_append (a b : List Char) : value (a ++ b) = value a * 10 ^ b.length + value b := by
  rw [value, Nat.ofDigitChars_append, Nat.ofDigitChars_eq_ofDigitChars_zero, Nat.mul_comm]
  rfl

theorem value_nil : value [] = 0 :=
  rfl

theorem value_singleton (c : Char) : value [c] = c.toNat - '0'.toNat := by
  simp [value, Nat.ofDigitChars_cons]

theorem value_cons (c : Char) (run : List Char) :
    value (c :: run) = (c.toNat - '0'.toNat) * 10 ^ run.length + value run := by
  rw [← value_singleton, ← value_append]
  rfl

theorem value_zeros (count : Nat) : value (List.replicate count '0') = 0 := by
  rw [value, Nat.ofDigitChars_replicate_zero, Nat.mul_zero]

theorem value_append_zeros (run : List Char) (count : Nat) :
    value (run ++ List.replicate count '0') = value run * 10 ^ count := by
  rw [value_append, value_zeros, List.length_replicate, Nat.add_zero]

theorem value_padded (width n : Nat) : value (padded width n) = n := by
  rw [padded, value_append, value_zeros, Nat.zero_mul, Nat.zero_add, value_digits]

theorem width_le_length_padded (width n : Nat) : width ≤ (padded width n).length := by
  simp only [padded, List.length_append, List.length_replicate]
  omega

theorem padded_ne_nil (width n : Nat) : padded width n ≠ [] := by
  simp [padded, digits_ne_nil]

theorem readNat?_eq_some {run : List Char} (digits : AllDigits run) (notEmpty : run ≠ []) :
    readNat? run = some (value run) := by
  have all : run.all Char.isDigit = true := List.all_eq_true.2 digits
  simp [readNat?, notEmpty, all]

end Numeral

namespace Text

theorem not_isBlank_of_isDigit {c : Char} (digit : c.isDigit = true) : isBlank c = false := by
  simp only [Char.isDigit, Bool.and_eq_true, decide_eq_true_eq, UInt32.le_iff_toNat_le] at digit
  have low : 48 ≤ c.toNat := digit.1
  have high : c.toNat ≤ 57 := digit.2
  simp only [isBlank, inRanges, blankRanges, List.any_cons, List.any_nil, Bool.or_false,
    Bool.or_eq_false_iff, Bool.and_eq_false_iff, decide_eq_false_iff_not]
  omega

theorem allBlank_eq_false {s : List Char} {c : Char} (listed : c ∈ s) (shown : isBlank c = false) :
    allBlank s = false :=
  List.all_eq_false.2 ⟨c, listed, by simp [shown]⟩

theorem skipBlanks_of_head {s : List Char} (shown : ∀ c ∈ s.head?, isBlank c = false) :
    skipBlanks s = s := by
  cases s with
  | nil => rfl
  | cons c rest => simp [skipBlanks, shown c rfl]

end Text

end Criteria
