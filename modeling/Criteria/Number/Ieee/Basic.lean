set_option autoImplicit false

namespace Criteria

-- Powers are the core library's, whichever instances are in scope besides.
attribute [local instance (high)] instPowNat

inductive Precision where
  | single
  | double
deriving DecidableEq, Repr

namespace Precision

def fractionBits : Precision → Nat
  | single => 23
  | double => 52

def exponentBits : Precision → Nat
  | single => 8
  | double => 11

def magnitudeBits (p : Precision) : Nat :=
  p.exponentBits + p.fractionBits

def minExponent (p : Precision) : Int :=
  2 - 2 ^ (p.exponentBits - 1) - p.fractionBits

def infinityBits (p : Precision) : Nat :=
  (2 ^ p.exponentBits - 1) * 2 ^ p.fractionBits

end Precision

structure Ieee where
  precision : Precision
  negative : Bool
  magnitude : Nat
  magnitude_lt : magnitude < 2 ^ precision.magnitudeBits
deriving DecidableEq

namespace Ieee

def ofMagnitude (p : Precision) (negative : Bool) (magnitude : Nat) : Ieee :=
  ⟨p, negative, magnitude % 2 ^ p.magnitudeBits, Nat.mod_lt _ (Nat.two_pow_pos _)⟩

def ofBits (p : Precision) (bits : Nat) : Ieee :=
  ofMagnitude p (bits / 2 ^ p.magnitudeBits % 2 == 1) bits

def bits (x : Ieee) : Nat :=
  (if x.negative then 2 ^ x.precision.magnitudeBits else 0) + x.magnitude

def zero (p : Precision) (negative : Bool) : Ieee :=
  ofMagnitude p negative 0

def infinity (p : Precision) (negative : Bool) : Ieee :=
  ofMagnitude p negative p.infinityBits

def nan (p : Precision) : Ieee :=
  ofMagnitude p false (p.infinityBits + 2 ^ (p.fractionBits - 1))

def isNaN (x : Ieee) : Bool :=
  x.precision.infinityBits < x.magnitude

def isInfinite (x : Ieee) : Bool :=
  x.magnitude == x.precision.infinityBits

def isFinite (x : Ieee) : Bool :=
  x.magnitude < x.precision.infinityBits

def isZero (x : Ieee) : Bool :=
  x.magnitude == 0

def mantissa (x : Ieee) : Nat :=
  let step := 2 ^ x.precision.fractionBits
  if x.magnitude < step then x.magnitude else step + x.magnitude % step

def exponent (x : Ieee) : Int :=
  x.precision.minExponent + (x.magnitude / 2 ^ x.precision.fractionBits - 1 : Nat)

def same (x y : Ieee) : Bool :=
  x.precision == y.precision && !x.isNaN && !y.isNaN &&
    (x.isZero && y.isZero || x.negative == y.negative && x.magnitude == y.magnitude)

end Ieee

end Criteria
