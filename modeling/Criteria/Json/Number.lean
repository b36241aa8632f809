import Criteria.Json.Basic

set_option autoImplicit false

namespace Criteria.Json

-- Powers are the core library's, whichever instances are in scope besides.
attribute [local instance (high)] instPowNat

def faultAt (s : List Char) : JsonFault :=
  if s.isEmpty then .truncated else .malformed

def absorb (n : Nat) : List Char → Nat × Nat
  | [] => (n, 0)
  | c :: rest =>
    let next := n * 10 + (c.toNat - '0'.toNat)
    if next < 2 ^ (64 : Nat) then absorb next rest else (n, rest.length + 1)

def divideOut : Nat → Ieee → Int → Ieee × Int
  | 0, x, e => (x, e)
  | steps + 1, x, e =>
    if -308 ≤ e ∨ x.isZero then (x, e)
    else divideOut steps (x.div (Ieee.ofDecimal .double false 1 308)) (e + 308)

def scaled? (negative : Bool) (n : Nat) (e : Int) : Except JsonFault Ieee :=
  let start := Ieee.ofNat .double n
  let (x, e) := divideOut ((-e).toNat / 308) start e
  let power := Ieee.ofDecimal .double false 1 e.natAbs
  if x.isZero then
    .ok (Ieee.zero .double negative)
  else if 308 < e then
    .error .malformed
  else
    let y := if 0 ≤ e then x.mul power else x.div power
    if y.isInfinite then .error .malformed
    else .ok (Ieee.ofMagnitude .double negative y.magnitude)

def readExponent (s : List Char) : Read Int :=
  let (negative, s) :=
    match s with
    | '-' :: rest => (true, rest)
    | '+' :: rest => (false, rest)
    | _ => (false, s)
  match s.takeWhile Char.isDigit with
  | [] => .error (faultAt s)
  | run =>
    let e : Int := Numeral.value run
    .ok (if negative then -e else e, s.dropWhile Char.isDigit)

def withExponent (negative : Bool) (n : Nat) (shift : Int) (s : List Char) : Read JsonNumber :=
  match readExponent s with
  | .error fault => .error fault
  | .ok (e, rest) =>
    -- An exponent beyond thirty-two bits makes any number too large or zero.
    let value :=
      if e.natAbs < 2 ^ (31 : Nat) then scaled? negative n (shift + e)
      else if n ≠ 0 ∧ 0 < e then .error .malformed
      else .ok (Ieee.zero .double negative)
    value.map fun x => (.double x, rest)

def isExponentMark (c : Char) : Bool :=
  c == 'e' || c == 'E'

def readFraction (n : Nat) (shift : Int) : List Char → Read (Bool × Nat × Int)
  | '.' :: after =>
    let run := after.takeWhile Char.isDigit
    let rest := after.dropWhile Char.isDigit
    if run = [] then
      .error (faultAt rest)
    else
      let (n, left) := absorb n run
      .ok ((false, n, shift - (run.length - left : Nat)), rest)
  | s => .ok ((true, n, shift), s)

def unscaled (negative whole : Bool) (n : Nat) (shift : Int) : Except JsonFault JsonNumber :=
  if !whole || shift != 0 then
    (scaled? negative n shift).map .double
  -- There is no negative zero among the integers.
  else if negative && (n == 0 || 2 ^ (63 : Nat) < n) then
    .ok (.double (Ieee.ofRatio .double true n 1))
  else
    .ok (.integer (if negative then -n else n))

def readUnsigned (negative : Bool) (s : List Char) : Read JsonNumber :=
  let run := s.takeWhile Char.isDigit
  let rest := s.dropWhile Char.isDigit
  match run with
  | [] => .error (faultAt s)
  -- No digit follows a leading zero.
  | '0' :: _ :: _ => .error .malformed
  | _ =>
    let (n, left) := absorb 0 run
    match readFraction n left rest with
    | .error fault => .error fault
    | .ok ((whole, n, shift), rest) =>
      let plain := (unscaled negative whole n shift).map (·, rest)
      match rest with
      | [] => plain
      | c :: exponent =>
        if isExponentMark c then withExponent negative n shift exponent else plain

def readNumber : List Char → Read JsonNumber
  | '-' :: rest => readUnsigned true rest
  | s => readUnsigned false s

def skipNumber (s : List Char) : Read Unit :=
  let s := if s.head? = some '-' then s.drop 1 else s
  let run := s.takeWhile Char.isDigit
  if run = [] ∨ (run.head? = some '0' ∧ 1 < run.length) then
    .error .malformed
  else
    match s.dropWhile Char.isDigit with
    | '.' :: after =>
      let rest := after.dropWhile Char.isDigit
      if after.takeWhile Char.isDigit = [] then .error .malformed else skipExponent rest
    | rest => skipExponent rest
where
  skipExponent (s : List Char) : Read Unit :=
    match s with
    | c :: after =>
      if isExponentMark c then
        match readExponent after with
        | .ok (_, rest) => .ok ((), rest)
        | .error _ => .error .malformed
      else
        .ok ((), s)
    | [] => .ok ((), s)

end Criteria.Json
