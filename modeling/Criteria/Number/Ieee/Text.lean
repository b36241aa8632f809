import Criteria.Number.Ieee.Shortest
import Criteria.Text.Letters

set_option autoImplicit false

namespace Criteria.Ieee

def dropTrailingZeros (run : List Char) : List Char :=
  (run.reverse.dropWhile (· == '0')).reverse

def ShortDecimal.layout (d : ShortDecimal) : List Char × Int :=
  let run := Numeral.digits d.coefficient
  (dropTrailingZeros run, run.length + d.exponent)

def positional (run : List Char) (places : Int) : List Char :=
  if places ≤ 0 then
    '0' :: '.' :: List.replicate (-places).toNat '0' ++ run
  else if run.length ≤ places.toNat then
    run ++ List.replicate (places.toNat - run.length) '0'
  else
    run.take places.toNat ++ '.' :: run.drop places.toNat

def text (x : Ieee) : List Char :=
  let sign := if x.negative then ['-'] else []
  if x.isNaN then "NaN".toList
  else if x.isInfinite then sign ++ "inf".toList
  else if x.isZero then sign ++ ['0']
  else
    let (run, places) := (x.shortest .up).layout
    sign ++ positional run places

def readMantissa (s : List Char) : Option (Nat × Nat) × List Char :=
  let whole := s.takeWhile Char.isDigit
  let rest := s.dropWhile Char.isDigit
  let (fraction, rest) :=
    match rest with
    | '.' :: after => (after.takeWhile Char.isDigit, after.dropWhile Char.isDigit)
    | _ => ([], rest)
  if whole = [] ∧ fraction = [] then (none, rest)
  else (some (Numeral.value (whole ++ fraction), fraction.length), rest)

def readExponent? : List Char → Option Int
  | [] => some 0
  | c :: rest => if c = 'e' ∨ c = 'E' then Numeral.readInt? rest else none

def readUnsigned? (p : Precision) (negative : Bool) (s : List Char) : Option Ieee :=
  if Text.sameLetters s "inf".toList || Text.sameLetters s "infinity".toList then
    some (infinity p negative)
  else if Text.sameLetters s "nan".toList then
    some (nan p)
  else
    match readMantissa s with
    | (none, _) => none
    | (some (coefficient, places), rest) =>
      (readExponent? rest).map fun e => ofDecimal p negative coefficient (e - places)

def read? (p : Precision) : List Char → Option Ieee
  | '-' :: rest => readUnsigned? p true rest
  | '+' :: rest => readUnsigned? p false rest
  | s => readUnsigned? p false s

end Criteria.Ieee
