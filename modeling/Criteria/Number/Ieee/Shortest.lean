import Criteria.Number.Ieee.Rounding

set_option autoImplicit false

namespace Criteria.Ieee

-- Powers are the core library's, whichever instances are in scope besides.
attribute [local instance (high)] instPowNat

structure ShortDecimal where
  coefficient : Nat
  exponent : Int
deriving DecidableEq, Repr

inductive Tie where
  | up
  | even
deriving DecidableEq, Repr

/-- The reals that round to a positive finite number: those between `lower / unit` and
`upper / unit`, the ends included when `closed`. -/
structure Vicinity where
  lower : Nat
  centre : Nat
  upper : Nat
  unit : Nat
  closed : Bool

def vicinity (x : Ieee) : Vicinity :=
  let m := x.mantissa
  -- Below a power of two the steps are half as long.
  let narrow := m == 2 ^ x.precision.fractionBits && x.exponent != x.precision.minExponent
  let q := x.exponent - 2
  let scale := 2 ^ q.toNat
  { lower := (4 * m - if narrow then 1 else 2) * scale
    centre := 4 * m * scale
    upper := (4 * m + 2) * scale
    unit := 2 ^ (-q).toNat
    closed := m % 2 == 0 }

namespace Vicinity

def holds (v : Vicinity) (c : Nat) (k : Int) : Bool :=
  let point := c * v.unit * 10 ^ k.toNat
  let scale := 10 ^ (-k).toNat
  if v.closed then v.lower * scale ≤ point && point ≤ v.upper * scale
  else v.lower * scale < point && point < v.upper * scale

def point? (v : Vicinity) (tie : Tie) (k : Int) : Option Nat :=
  let den := v.unit * 10 ^ k.toNat
  let num := v.centre * 10 ^ (-k).toNat
  let c := num / den
  let r := num % den
  match v.holds c k, v.holds (c + 1) k with
  | false, false => none
  | true, false => some c
  | false, true => some (c + 1)
  | true, true =>
    if 2 * r < den then some c
    else if den < 2 * r then some (c + 1)
    else match tie with
      | .up => some (c + 1)
      | .even => some (c + c % 2)

def search (v : Vicinity) (tie : Tie) : Nat → Int → ShortDecimal
  | 0, k => ⟨v.centre * 10 ^ (-k).toNat / (v.unit * 10 ^ k.toNat), k⟩
  | tries + 1, k =>
    match v.point? tie k with
    | some c => ⟨c, k⟩
    | none => v.search tie tries (k - 1)

end Vicinity

def decade (num den : Nat) : Int :=
  let t := binade num den * 30103 / 100000
  let reaches (k : Int) : Bool := den * 10 ^ k.toNat ≤ num * 10 ^ (-k).toNat
  if reaches (t + 1) then t + 1 else if reaches t then t else t - 1

def shortest (tie : Tie) (x : Ieee) : ShortDecimal :=
  let v := x.vicinity
  v.search tie 17 (decade v.centre v.unit)

end Criteria.Ieee
