import Criteria.Proofs.Number.Digits
import Criteria.Proofs.Text.Delimited
import Criteria.Value.Display

set_option autoImplicit false

namespace Criteria

open Text (Bare bare_nil bare_cons bare_append bare_reverse bare_replicate)

namespace Numeral

theorem bare_digits (n : Nat) : Bare (digits n) :=
  Text.bare_of_all (by decide) fun _ => isDigit_of_mem_digits

theorem bare_ofInt (n : Int) : Bare (ofInt n) := by
  unfold ofInt
  split <;> simp +decide [bare_digits]

theorem ofInt_ne_nil (n : Int) : ofInt n ≠ [] := by
  unfold ofInt
  split <;> simp [digits_ne_nil]

theorem bare_padded (width n : Nat) : Bare (padded width n) := by
  simp [padded, bare_digits, bare_replicate _ (show '0' ∉ Text.delimiters by decide)]

end Numeral

theorem SizedInt.bare_text (n : SizedInt) : Bare n.text :=
  Numeral.bare_ofInt n.value

theorem SizedInt.text_ne_nil (n : SizedInt) : n.text ≠ [] :=
  Numeral.ofInt_ne_nil n.value

theorem Decimal.bare_text (d : Decimal) : Bare d.text := by
  have run := Numeral.bare_padded (d.scale + 1) d.coefficient
  have sign : Bare (if d.negative then ['-'] else []) := by split <;> decide
  unfold text
  generalize (if d.negative then ['-'] else []) = sign' at *
  refine bare_append.2 ⟨bare_append.2 ⟨sign, run.take _⟩, ?_⟩
  split
  · exact bare_nil
  · exact bare_cons.2 ⟨by decide, run.drop _⟩

theorem Decimal.text_ne_nil (d : Decimal) : d.text ≠ [] := by
  have width := Numeral.width_le_length_padded (d.scale + 1) d.coefficient
  have whole : 0 < (Numeral.padded (d.scale + 1) d.coefficient).length - d.scale := by omega
  intro none
  simp only [text, List.append_eq_nil_iff, List.take_eq_nil_iff] at none
  rcases none.1.2 with few | empty
  · omega
  · exact Numeral.padded_ne_nil _ _ empty

namespace Ieee

theorem bare_dropTrailingZeros {run : List Char} (bare : Bare run) :
    Bare (dropTrailingZeros run) := by
  have reversed : Bare run.reverse := bare_reverse.2 bare
  exact bare_reverse.2 (reversed.of_subset (List.dropWhile_sublist _).subset)

theorem bare_positional {run : List Char} (bare : Bare run) (places : Int) :
    Bare (positional run places) := by
  have zeros (n : Nat) := bare_replicate n (show '0' ∉ Text.delimiters by decide)
  unfold positional
  split
  · simp +decide [bare, zeros]
  · split <;> simp +decide [bare, zeros, bare.take, bare.drop]

theorem positional_ne_nil (run : List Char) (places : Int) : positional run places ≠ [] := by
  unfold positional
  split
  · simp
  · next some =>
    split
    · intro none
      have count : run.length = 0 ∧ places.toNat - run.length = 0 := by simpa using none
      omega
    · simp

theorem bare_text (x : Ieee) : Bare x.text := by
  have sign : Bare (if x.negative then ['-'] else []) := by split <;> decide
  have run := bare_dropTrailingZeros (Numeral.bare_digits (x.shortest .up).coefficient)
  unfold text
  generalize (if x.negative then ['-'] else []) = sign' at *
  dsimp only
  split
  · decide
  · split
    · exact bare_append.2 ⟨sign, by decide⟩
    · split
      · exact bare_append.2 ⟨sign, by decide⟩
      · exact bare_append.2 ⟨sign, bare_positional run _⟩

theorem text_ne_nil (x : Ieee) : x.text ≠ [] := by
  unfold text
  dsimp only
  split
  · simp
  · split
    · simp
    · split
      · simp
      · simp [positional_ne_nil]

end Ieee

theorem Uuid.bare_text (u : Uuid) : Bare u.text := by
  have char : ∀ d, hexChar d ∉ Text.delimiters := by decide
  have run : Bare (u.digits.map hexChar) := List.forall_mem_map.2 fun d _ => char d
  simp +decide [text, hyphenate, run.take, run.drop, (run.drop _).take]

namespace Calendar

theorem Date.bare_text (d : Date) : Bare d.text := by
  have year : Bare (yearText d.year) := by
    unfold yearText
    dsimp only
    split
    · simp +decide [Numeral.bare_padded]
    · split <;> simp +decide [Numeral.bare_padded]
  simp +decide [text, year, Numeral.bare_padded]

theorem TimeOfDay.bare_text (t : TimeOfDay) : Bare t.text := by
  simp +decide [text, Numeral.bare_padded]

theorem DateTime.bare_text (t : DateTime) : Bare t.text := by
  simp +decide [text, Date.bare_text, TimeOfDay.bare_text]

end Calendar

end Criteria
