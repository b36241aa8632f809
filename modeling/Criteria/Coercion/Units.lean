import Criteria.Coercion.Parser
import Criteria.Text.DecimalDigit

set_option autoImplicit false

namespace Criteria.Units

-- Powers are the core library's, whichever instances are in scope besides.
attribute [local instance (high)] instPowNat

def splitAmount? (fractions : Bool) (s : List Char) : Option (List Char × List Char) :=
  let whole := s.takeWhile Text.isDecimalDigit
  let rest := s.dropWhile Text.isDecimalDigit
  if whole = [] then
    none
  else
    match rest with
    | '.' :: after =>
      let fraction := after.takeWhile Text.isDecimalDigit
      if fractions ∧ fraction ≠ [] then
        some (whole ++ '.' :: fraction, after.dropWhile Text.isDecimalDigit)
      else
        some (whole, rest)
    | _ => some (whole, rest)

def measure? {α : Type} (fractions : Bool) (units : List (String × α)) (s : List Char) :
    Option (List Char × α) :=
  match splitAmount? fractions s with
  | none => none
  | some (amount, unit) => (units.lookup (String.ofList unit)).map (amount, ·)

def places (amount : List Char) : Nat :=
  (amount.dropWhile (· != '.')).length - 1

def rates : List (String × Ieee) :=
  [("GBP", .ofDecimal .double false 130 (-2)), ("EUR", .ofDecimal .double false 112 (-2))]

def currency : ValueParser := fun v =>
  match v.text? with
  | none => ValueParser.float .double v
  | some s =>
    match measure? true rates s.toList with
    | none => .error (.ofValue v "currency")
    | some (amount, rate) =>
      if 2 < places amount then
        .error (.ofValue v "currency")
      else
        match Ieee.read? .double amount with
        | none => .error (.ofValue v "currency")
        | some x => .ok (.float (x.mul rate))

def milliseconds : List (String × Int) :=
  [("SECONDS", 1000), ("MINS", 60000), ("HOURS", 3600000), ("DAYS", 86400000)]

def wrapped (n : Int) : SizedInt :=
  ⟨.long, n.bmod (2 ^ (64 : Nat)), by
    have h₁ := Int.le_bmod (x := n) (m := 2 ^ (64 : Nat)) (by decide)
    have h₂ := Int.bmod_lt (x := n) (m := 2 ^ (64 : Nat)) (by decide)
    simp only [IntWidth.Holds, IntWidth.bits]
    omega⟩

def duration : ValueParser := fun v =>
  match v.text? with
  | none => ValueParser.int .long v
  | some s =>
    match measure? false milliseconds s.toList with
    | none => .error (.ofValue v "duration")
    | some (amount, factor) =>
      match SizedInt.read? .long amount with
      | none => .error (.ofValue v "duration")
      | some n => .ok (.int (wrapped (n.value * factor)))

def byteFactors : List (String × Nat) :=
  [("KB", 1000), ("KIB", 1024), ("MB", 1000 ^ (2 : Nat)), ("MIB", 1024 ^ (2 : Nat)),
    ("GB", 1000 ^ (3 : Nat)), ("GIB", 1024 ^ (3 : Nat))]

def byteSize : ValueParser := fun v =>
  match v.text?.bind fun s => measure? true byteFactors s.toList with
  -- A text without a unit may still be a plain number.
  | none => ValueParser.int .long v
  | some (amount, factor) =>
    match Ieee.read? .double amount with
    | none => .error (.ofValue v "bytes")
    | some x => .ok (.int (wrapped ((x.mul (Ieee.ofNat .double factor)).truncate .long)))

end Criteria.Units
