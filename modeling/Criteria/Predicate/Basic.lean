import Criteria.Filter.Comparison
import Criteria.Schema.Join
import Criteria.Value.Basic

set_option autoImplicit false

namespace Criteria

inductive Test where
  | compare (op : Comparison) (value : Value)
  | between (low high : Value)
  | oneOf (values : List Value)
  | null
  | like (pattern : String)

inductive Predicate where
  | leaf (path : AttributePath) (test : Test)
  | group (op : Connective) (operands : List Predicate)
  | not (operand : Predicate)

def Test.same : Test → Test → Bool
  | compare op v, compare op' v' => op == op' && v == v'
  | between low high, between low' high' => low == low' && high == high'
  | oneOf values, oneOf values' => Value.sameItems values values'
  | null, null => true
  | like pattern, like pattern' => pattern == pattern'
  | _, _ => false

instance : BEq Test :=
  ⟨Test.same⟩

namespace Predicate

def conj (p q : Predicate) : Predicate :=
  group .and [p, q]

def disj (p q : Predicate) : Predicate :=
  group .or [p, q]

def isGroup : Predicate → Bool
  | group _ _ => true
  | _ => false

mutual

def size : Predicate → Nat
  | leaf _ _ => 1
  | group _ operands => 1 + sizes operands
  | not operand => 1 + operand.size

def sizes : List Predicate → Nat
  | [] => 0
  | p :: rest => p.size + sizes rest

end

mutual

def leaves : Predicate → List (AttributePath × Test)
  | leaf path test => [(path, test)]
  | group _ operands => operandLeaves operands
  | not p => p.leaves

def operandLeaves : List Predicate → List (AttributePath × Test)
  | [] => []
  | p :: rest => p.leaves ++ operandLeaves rest

end

mutual

def same : Predicate → Predicate → Bool
  | leaf path test, leaf path' test' => path == path' && test == test'
  | group op operands, group op' operands' => op == op' && sameOperands operands operands'
  | not p, not q => same p q
  | _, _ => false

def sameOperands : List Predicate → List Predicate → Bool
  | [], [] => true
  | p :: ps, q :: qs => same p q && sameOperands ps qs
  | _, _ => false

end

instance : BEq Predicate :=
  ⟨same⟩

end Predicate

end Criteria
