set_option autoImplicit false

namespace Criteria.Numeral

def digits (n : Nat) : List Char :=
  Nat.toDigits 10 n

def value (run : List Char) : Nat :=
  Nat.ofDigitChars 10 run 0

def ofInt (n : Int) : List Char :=
  if n < 0 then '-' :: digits n.natAbs else digits n.natAbs

def readNat? (s : List Char) : Option Nat :=
  if s ≠ [] ∧ s.all Char.isDigit then some (value s) else none

def readInt? : List Char → Option Int
  | '-' :: rest => (readNat? rest).map fun n : Nat => -(n : Int)
  | '+' :: rest => (readNat? rest).map fun n : Nat => (n : Int)
  | s => (readNat? s).map fun n : Nat => (n : Int)

def padded (width n : Nat) : List Char :=
  let run := digits n
  List.replicate (width - run.length) '0' ++ run

theorem value_digits (n : Nat) : value (digits n) = n :=
  Nat.ofDigitChars_ten_toDigits

theorem digits_ne_nil (n : Nat) : digits n ≠ [] := by
  have := Nat.length_toDigits_pos (b := 10) (n := n)
  intro h
  simp [digits] at h

theorem isDigit_of_mem_digits {n : Nat} {c : Char} (h : c ∈ digits n) : c.isDigit = true :=
  Nat.isDigit_of_mem_toDigits (by decide) (by decide) h

theorem readNat?_digits (n : Nat) : readNat? (digits n) = some n := by
  have h : (digits n).all Char.isDigit = true := by
    simpa using fun c hc => isDigit_of_mem_digits hc
  simp [readNat?, digits_ne_nil, h, value_digits]

theorem digits_ne_cons {n : Nat} {c : Char} {rest : List Char} (hc : c.isDigit = false) :
    digits n ≠ c :: rest := by
  intro h
  have : c.isDigit = true := isDigit_of_mem_digits (n := n) (by simp [h])
  simp [this] at hc

theorem readInt?_ofInt (n : Int) : readInt? (ofInt n) = some n := by
  unfold ofInt
  split
  · simp only [readInt?, readNat?_digits, Option.map_some, Option.some.injEq]
    omega
  · have : readInt? (digits n.natAbs) = (readNat? (digits n.natAbs)).map fun n : Nat => (n : Int) := by
      unfold readInt?
      split
      · next h => exact absurd h (digits_ne_cons (by decide))
      · next h => exact absurd h (digits_ne_cons (by decide))
      · rfl
    rw [this, readNat?_digits, Option.map_some, Option.some.injEq]
    omega

end Criteria.Numeral
