import Criteria.Number.Numeral

set_option autoImplicit false

namespace Criteria

-- Powers are the core library's, whichever instances are in scope besides.
attribute [local instance (high)] instPowNat

structure Decimal where
  negative : Bool
  coefficient : Nat
  scale : Nat
  coefficient_lt : coefficient < 2 ^ (96 : Nat)
  scale_le : scale ≤ 28
deriving DecidableEq

namespace Decimal

def ofParts? (negative : Bool) (coefficient scale : Nat) : Option Decimal :=
  if h : coefficient < 2 ^ (96 : Nat) ∧ scale ≤ 28 then some ⟨negative, coefficient, scale, h.1, h.2⟩
  else none

theorem ofParts?_self (d : Decimal) : ofParts? d.negative d.coefficient d.scale = some d := by
  exact dif_pos ⟨d.coefficient_lt, d.scale_le⟩

def signed (d : Decimal) : Int :=
  if d.negative then -d.coefficient else d.coefficient

def same (a b : Decimal) : Bool :=
  a.signed * 10 ^ b.scale == b.signed * 10 ^ a.scale

def text (d : Decimal) : List Char :=
  let run := Numeral.padded (d.scale + 1) d.coefficient
  let whole := run.take (run.length - d.scale)
  let fraction := run.drop (run.length - d.scale)
  let sign := if d.negative then ['-'] else []
  sign ++ whole ++ if d.scale = 0 then [] else '.' :: fraction

structure Draft where
  coefficient : Nat := 0
  places : Nat := 0
  pastPoint : Bool := false
  begun : Bool := false

/-- Rounds by the first digit that has no room, five and more upward. What follows that digit is
not looked at beyond its being digits and underscores. -/
def Draft.round? (d : Draft) (digit : Nat) (rest : List Char) : Option (Nat × Nat) :=
  if rest.all fun c => c.isDigit || c == '_' then
    if digit < 5 then some (d.coefficient, d.places)
    else if d.coefficient + 1 < 2 ^ (96 : Nat) then some (d.coefficient + 1, d.places)
    else if d.places = 0 then none
    -- The number rounded up has no room either, so its last digit is rounded away too.
    else some ((d.coefficient + 5) / 10, d.places - 1)
  else
    none

def wordLimit : Nat :=
  (2 ^ (64 : Nat) - 1) / 10 - 255

def Draft.fitsWord (d : Draft) : Bool :=
  d.coefficient / 10 < wordLimit

def Draft.read? : List Char → Draft → Option (Nat × Nat)
  | [], d => if d.begun then some (d.coefficient, d.places) else none
  | c :: rest, d =>
    if c.isDigit then
      let digit := c.toNat - '0'.toNat
      let next := d.coefficient * 10 + digit
      if d.places = 28 then d.round? digit rest
      else if next < 2 ^ (96 : Nat) then
        Draft.read? rest
          { d with
            coefficient := next
            places := if d.pastPoint then d.places + 1 else 0
            begun := true }
      else if d.pastPoint then d.round? digit rest
      else none
    else if c = '_' ∧ d.begun then
      -- Behind the last place of a short number an underscore stands for a zero.
      if d.places = 28 ∧ d.fitsWord then d.round? 0 rest else Draft.read? rest d
    else if c = '.' ∧ !d.pastPoint then
      Draft.read? rest { d with pastPoint := true }
    else
      none

def readPlain? : List Char → Option Decimal
  | '-' :: rest => (Draft.read? rest {}).bind fun (c, scale) => ofParts? (c != 0) c scale
  | '+' :: rest => (Draft.read? rest {}).bind fun (c, scale) => ofParts? false c scale
  | s => (Draft.read? s {}).bind fun (c, scale) => ofParts? false c scale

def readCount? : List Char → Option Nat
  | '+' :: rest => Numeral.readNat? rest
  | s => Numeral.readNat? s

def dropDigits (coefficient count : Nat) : Nat :=
  let unit := 10 ^ count
  (2 * coefficient + unit) / (2 * unit)

/-- Moves the point by at most twenty-eight places: to the left by adding places, as many as there
is room for, to the right by taking places away and, when there are none left, by adding zeros. The
sign stays, also of a number that is rounded to zero. -/
def shift? (d : Decimal) : List Char → Option Decimal
  | '-' :: exponent =>
    (readCount? exponent).bind fun e =>
      let excess := d.scale + e - 28
      if e ≤ 28 then
        ofParts? d.negative (dropDigits d.coefficient excess) (d.scale + e - excess)
      else
        none
  | exponent =>
    (readCount? exponent).bind fun e =>
      if e ≤ d.scale then ofParts? d.negative d.coefficient (d.scale - e)
      else if e ≤ 28 then ofParts? d.negative (d.coefficient * 10 ^ (e - d.scale)) 0
      else none

def isExponentMark (c : Char) : Bool :=
  c == 'e' || c == 'E'

def read? (s : List Char) : Option Decimal :=
  match s.dropWhile (!isExponentMark ·) with
  | [] => readPlain? s
  | _ :: exponent => (readPlain? (s.takeWhile (!isExponentMark ·))).bind (shift? · exponent)

end Decimal

end Criteria
