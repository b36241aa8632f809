import Criteria.Number.Numeral

set_option autoImplicit false

namespace Criteria

structure Position where
  line : Nat := 1
  column : Nat := 0
deriving DecidableEq, Repr

namespace Position

def step (p : Position) (c : Char) : Position :=
  if c = '\n' then ⟨p.line + 1, 0⟩ else ⟨p.line, p.column + 1⟩

def advance (p : Position) (s : List Char) : Position :=
  s.foldl step p

def display (p : Position) : String :=
  String.ofList (Numeral.digits p.line ++ ':' :: Numeral.digits p.column)

@[simp] theorem advance_nil (p : Position) : p.advance [] = p :=
  rfl

end Position

end Criteria
