import Criteria.Number.Ieee.Basic
import Criteria.Number.Sized

set_option autoImplicit false

namespace Criteria.Ieee

-- Powers are the core library's, whichever instances are in scope besides.
attribute [local instance (high)] instPowNat

def halfEven (num den : Nat) : Nat :=
  let q := num / den
  let r := num % den
  if 2 * r < den ∨ (2 * r = den ∧ q % 2 = 0) then q else q + 1

def binade (num den : Nat) : Int :=
  let k : Int := (num.log2 : Int) - den.log2
  if den * 2 ^ k.toNat ≤ num * 2 ^ (-k).toNat then k else k - 1

def nearestMagnitude (p : Precision) (num den : Nat) : Nat :=
  if num = 0 then
    0
  else
    let q := max (binade num den - p.fractionBits) p.minExponent
    let n := halfEven (num * 2 ^ (-q).toNat) (den * 2 ^ q.toNat)
    min ((q - p.minExponent).toNat * 2 ^ p.fractionBits + n) p.infinityBits

def ofRatio (p : Precision) (negative : Bool) (num den : Nat) : Ieee :=
  ofMagnitude p negative (nearestMagnitude p num den)

def ofNat (p : Precision) (n : Nat) : Ieee :=
  ofRatio p false n 1

def ofDecimal (p : Precision) (negative : Bool) (coefficient : Nat) (exponent : Int) : Ieee :=
  -- Four hundred places on either side of the point are past the range of both precisions.
  let places : Int := (Numeral.digits coefficient).length + exponent
  if coefficient = 0 ∨ places < -400 then
    zero p negative
  else if 400 < places then
    infinity p negative
  else
    ofRatio p negative (coefficient * 10 ^ exponent.toNat) (10 ^ (-exponent).toNat)

def mul (x y : Ieee) : Ieee :=
  let p := x.precision
  let negative := x.negative != y.negative
  if x.isNaN || y.isNaN || x.isInfinite && y.isZero || x.isZero && y.isInfinite then
    nan p
  else if x.isInfinite || y.isInfinite then
    infinity p negative
  else
    let e := x.exponent + y.exponent
    ofRatio p negative (x.mantissa * y.mantissa * 2 ^ e.toNat) (2 ^ (-e).toNat)

def div (x y : Ieee) : Ieee :=
  let p := x.precision
  let negative := x.negative != y.negative
  if x.isNaN || y.isNaN || x.isInfinite && y.isInfinite || x.isZero && y.isZero then
    nan p
  else if x.isInfinite || y.isZero then
    infinity p negative
  else if y.isInfinite then
    zero p negative
  else
    let e := x.exponent - y.exponent
    ofRatio p negative (x.mantissa * 2 ^ e.toNat) (y.mantissa * 2 ^ (-e).toNat)

def truncate (w : IntWidth) (x : Ieee) : Int :=
  let bound : Int := 2 ^ (w.bits - 1)
  if x.isNaN then
    0
  else
    let whole : Int :=
      if x.isInfinite then bound
      else (x.mantissa * 2 ^ x.exponent.toNat / 2 ^ (-x.exponent).toNat : Nat)
    if x.negative then max (-whole) (-bound) else min whole (bound - 1)

end Criteria.Ieee
