import Criteria.Number.Decimal
import Criteria.Proofs.Number.Digits
import Mathlib.Data.List.TakeWhile

set_option autoImplicit false

namespace Criteria

-- Powers are the core library's, whichever instances are in scope besides.
attribute [local instance (high)] instPowNat

open Numeral (AllDigits)

namespace Decimal

namespace Draft

variable {d : Draft} {run rest : List Char}

def taken (d : Draft) (run : List Char) : Draft :=
  { d with
    coefficient := d.coefficient * 10 ^ run.length + Numeral.value run
    places := if d.pastPoint then d.places + run.length else d.places
    begun := d.begun || !run.isEmpty }

theorem taken_nil (d : Draft) : d.taken [] = d := by
  simp [taken, Numeral.value_nil]

theorem taken_cons (d : Draft) (c : Char) (run : List Char) :
    d.taken (c :: run) = (d.taken [c]).taken run := by
  simp only [taken, Numeral.value_singleton, Numeral.value_cons c run, List.length_cons,
    List.length_nil, mk.injEq]
  refine ⟨?_, ?_, trivial, by simp⟩
  · rw [Nat.pow_succ, Nat.pow_one, Nat.add_mul, Nat.mul_assoc, Nat.mul_comm 10, Nat.add_assoc]
  · split <;> omega

theorem coefficient_le_taken (d : Draft) (run : List Char) :
    d.coefficient ≤ (d.taken run).coefficient :=
  Nat.le_trans (Nat.le_mul_of_pos_right _ (Nat.pow_pos (by decide))) (Nat.le_add_right _ _)

theorem read?_cons {c : Char} (digit : c.isDigit = true)
    (whole : d.pastPoint = false → d.places = 0) (room : (d.taken [c]).coefficient < 2 ^ (96 : Nat))
    (fits : (d.taken [c]).places ≤ 28) :
    Draft.read? (c :: rest) d = Draft.read? rest (d.taken [c]) := by
  have below : d.places ≠ 28 := by
    cases past : d.pastPoint with
    | false => simp [whole past]
    | true =>
      simp only [taken, past, if_true, List.length_singleton] at fits
      omega
  simp only [taken, Numeral.value_singleton, List.length_singleton, Nat.pow_one] at room
  rw [Draft.read?]
  simp only [digit, if_true, below, if_false, room, taken, Numeral.value_singleton,
    List.length_singleton, Nat.pow_one, List.isEmpty_cons, Bool.not_false, Bool.or_true]
  cases past : d.pastPoint with
  | false => simp [whole past]
  | true => simp

theorem read?_append (digits : AllDigits run) (whole : d.pastPoint = false → d.places = 0)
    (room : (d.taken run).coefficient < 2 ^ (96 : Nat)) (fits : (d.taken run).places ≤ 28) :
    Draft.read? (run ++ rest) d = Draft.read? rest (d.taken run) := by
  induction run generalizing d with
  | nil => rw [List.nil_append, taken_nil]
  | cons c run ih =>
    rw [taken_cons] at room fits ⊢
    have roomOne : (d.taken [c]).coefficient < 2 ^ (96 : Nat) :=
      Nat.lt_of_le_of_lt (coefficient_le_taken _ run) room
    have fitsOne : (d.taken [c]).places ≤ 28 := by
      refine Nat.le_trans ?_ fits
      rw [taken.eq_def (d.taken [c]) run]
      dsimp only
      split <;> omega
    have wholeOne : (d.taken [c]).pastPoint = false → (d.taken [c]).places = 0 := by
      intro before
      have before : d.pastPoint = false := before
      simp [taken, before, whole before]
    rw [List.cons_append, read?_cons (digits c List.mem_cons_self) whole roomOne fitsOne]
    exact ih (fun c listed => digits c (List.mem_cons_of_mem _ listed)) wholeOne room fits

end Draft

theorem read?_point {d : Draft} {rest : List Char} (before : d.pastPoint = false) :
    Draft.read? ('.' :: rest) d = Draft.read? rest { d with pastPoint := true } := by
  have noDigit : '.'.isDigit = false := rfl
  rw [Draft.read?]
  simp [noDigit, before]

theorem read?_parts {whole fraction : List Char} (digits : AllDigits whole)
    (digits' : AllDigits fraction) (begun : whole ≠ []) (few : fraction.length ≤ 28)
    (room : Numeral.value (whole ++ fraction) < 2 ^ (96 : Nat)) :
    Draft.read? (whole ++ if fraction.length = 0 then [] else '.' :: fraction) {} =
      some (Numeral.value (whole ++ fraction), fraction.length) := by
  have started : whole.isEmpty = false := by simpa using begun
  have wholeValue : (Draft.taken {} whole).coefficient = Numeral.value whole := by
    simp [Draft.taken]
  rw [Numeral.value_append] at room ⊢
  have roomWhole : (Draft.taken {} whole).coefficient < 2 ^ (96 : Nat) := by
    rw [wholeValue]
    have scaled : Numeral.value whole ≤ Numeral.value whole * 10 ^ fraction.length :=
      Nat.le_mul_of_pos_right _ (Nat.pow_pos (by decide))
    exact Nat.lt_of_le_of_lt (Nat.le_trans scaled (Nat.le_add_right _ _)) room
  rw [Draft.read?_append digits (fun _ => rfl) roomWhole (by simp [Draft.taken])]
  by_cases plain : fraction.length = 0
  · have plain : fraction = [] := List.length_eq_zero_iff.1 plain
    subst plain
    simp [Draft.read?, Draft.taken, started, Numeral.value_nil]
  · let d : Draft := { Draft.taken {} whole with pastPoint := true }
    have coefficient : (d.taken fraction).coefficient =
        Numeral.value whole * 10 ^ fraction.length + Numeral.value fraction := by
      simp [d, Draft.taken]
    have places : (d.taken fraction).places = fraction.length := by simp [d, Draft.taken]
    rw [if_neg plain, read?_point rfl, ← List.append_nil fraction,
      Draft.read?_append digits' (fun past => by simp at past) (by rw [coefficient]; exact room)
        (by rw [places]; exact few), Draft.read?, coefficient, places]
    simp [Draft.taken, started]

def unsignedZero (d : Decimal) : Decimal :=
  { d with negative := d.negative && d.coefficient != 0 }

theorem exists_text_eq (d : Decimal) : ∃ whole fraction, AllDigits whole ∧ AllDigits fraction ∧
    whole ≠ [] ∧ fraction.length = d.scale ∧ Numeral.value (whole ++ fraction) = d.coefficient ∧
    d.text = (if d.negative then ['-'] else []) ++
      (whole ++ if fraction.length = 0 then [] else '.' :: fraction) := by
  let run := Numeral.padded (d.scale + 1) d.coefficient
  have long : d.scale + 1 ≤ run.length := Numeral.width_le_length_padded ..
  have digits : AllDigits run := Numeral.allDigits_padded _ _
  have length : (run.drop (run.length - d.scale)).length = d.scale := by
    rw [List.length_drop]
    omega
  refine ⟨run.take (run.length - d.scale), run.drop (run.length - d.scale),
    digits.of_subset (List.take_subset _ _), digits.of_subset (List.drop_subset _ _), ?_, length,
    ?_, ?_⟩
  · intro none
    have none := congrArg List.length none
    rw [List.length_take, List.length_nil] at none
    omega
  · rw [List.take_append_drop]
    exact Numeral.value_padded ..
  · rw [length, ← List.append_assoc]
    rfl

theorem readPlain?_eq {c : Char} {rest : List Char} (digit : c.isDigit = true) :
    readPlain? (c :: rest) =
      (Draft.read? (c :: rest) {}).bind fun (n, scale) => ofParts? false n scale := by
  unfold readPlain?
  split
  · next same => cases same; simp at digit
  · next same => cases same; simp at digit
  · rfl

theorem not_isExponentMark_of_isDigit {c : Char} (digit : c.isDigit = true) :
    isExponentMark c = false := by
  simp only [isExponentMark, Bool.or_eq_false_iff, beq_eq_false_iff_ne]
  exact ⟨by rintro rfl; simp at digit, by rintro rfl; simp at digit⟩

theorem read?_eq_readPlain? {s : List Char} (plain : ∀ c ∈ s, isExponentMark c = false) :
    Decimal.read? s = readPlain? s := by
  have none : s.dropWhile (!isExponentMark ·) = [] :=
    List.dropWhile_eq_nil_iff.2 fun c listed => by simp [plain c listed]
  rw [Decimal.read?, none]

theorem read?_text (d : Decimal) : Decimal.read? d.text = some d.unsignedZero := by
  obtain ⟨whole, fraction, digits, digits', begun, length, value, written⟩ := d.exists_text_eq
  have plain : ∀ c ∈ d.text, isExponentMark c = false := by
    intro c listed
    rw [written] at listed
    simp only [List.mem_append] at listed
    rcases listed with sign | listed | listed
    · split at sign
      · rw [List.mem_singleton.1 sign]
        rfl
      · cases sign
    · exact not_isExponentMark_of_isDigit (digits c listed)
    · split at listed
      · cases listed
      · rcases List.mem_cons.1 listed with rfl | listed
        · rfl
        · exact not_isExponentMark_of_isDigit (digits' c listed)
  have parts := read?_parts digits digits' begun (length ▸ d.scale_le) (value ▸ d.coefficient_lt)
  rw [read?_eq_readPlain? plain, written]
  rw [value, length] at parts
  rw [length]
  cases negative : d.negative with
  | true =>
    have self := ofParts?_self d.unsignedZero
    simp only [unsignedZero, negative, Bool.true_and] at self
    simp only [if_true, List.singleton_append, readPlain?, parts, Option.bind_some, self]
    simp [unsignedZero, negative]
  | false =>
    have self := ofParts?_self d.unsignedZero
    simp only [unsignedZero, negative, Bool.false_and] at self
    obtain ⟨c, rest, rfl⟩ := List.exists_cons_of_ne_nil begun
    have digit := digits c List.mem_cons_self
    simp only [Bool.false_eq_true, if_false, List.nil_append, List.cons_append] at parts ⊢
    simp only [readPlain?_eq digit, parts, Option.bind_some, self]
    simp [unsignedZero, negative]

theorem not_blank_text (d : Decimal) : Text.allBlank d.text = false := by
  obtain ⟨whole, fraction, digits, -, begun, -, -, written⟩ := d.exists_text_eq
  obtain ⟨c, rest, rfl⟩ := List.exists_cons_of_ne_nil begun
  have listed : c ∈ d.text := by simp [written]
  exact Text.allBlank_eq_false listed (Text.not_isBlank_of_isDigit (digits c List.mem_cons_self))

end Decimal

end Criteria
