import Criteria.Predicate.Basic

set_option autoImplicit false

namespace Criteria

/-- What a backend with states `σ` makes of a test, of operands already made, and of a negation. -/
structure Backend (σ ε : Type) where
  test : AttributePath → Test → StateM σ ε
  combine : Connective → List ε → StateM σ ε
  negate : ε → StateM σ ε

namespace Predicate

variable {σ ε : Type}

mutual

def lower (b : Backend σ ε) : Predicate → StateM σ ε
  | leaf path test => b.test path test
  | group op operands => do
    let operands ← lowerAll b operands
    b.combine op operands
  | not operand => do
    let operand ← operand.lower b
    b.negate operand

def lowerAll (b : Backend σ ε) : List Predicate → StateM σ (List ε)
  | [] => pure []
  | p :: rest => do
    let x ← p.lower b
    let xs ← lowerAll b rest
    pure (x :: xs)

end

end Predicate

end Criteria
