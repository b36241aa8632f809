import Criteria.Predicate.Backend
import Criteria.Predicate.Display

set_option autoImplicit false

namespace Criteria

inductive BackendCall where
  | test (path : AttributePath) (test : Test)
  | combine (op : Connective) (operands : List Nat)
  | negate (operand : Nat)

namespace BackendCall

def reference (call : Nat) : List Char :=
  ' ' :: '#' :: Numeral.digits call

def shown : BackendCall → List Char
  | test path (.compare op v) =>
    "compare ".toList ++ path.shown ++ ' ' :: op.symbol.toList ++ ' ' :: v.shown
  | test path (.between low high) =>
    "between ".toList ++ path.shown ++ ' ' :: low.shown ++ ' ' :: high.shown
  | test path (.oneOf values) => "in ".toList ++ path.shown ++ ' ' :: (Value.list values).shown
  | test path .null => "null ".toList ++ path.shown
  | test path (.like pattern) => "like ".toList ++ path.shown ++ ' ' :: pattern.toList
  | combine .and operands => "and".toList ++ operands.flatMap reference
  | combine .or operands => "or".toList ++ operands.flatMap reference
  | negate operand => "not".toList ++ reference operand

def display (call : BackendCall) : String :=
  String.ofList call.shown

end BackendCall

def record (call : BackendCall) : StateM (Array BackendCall) Nat :=
  fun calls => (calls.size, calls.push call)

def recorder : Backend (Array BackendCall) Nat where
  test path test := record (.test path test)
  combine op operands := record (.combine op operands)
  negate operand := record (.negate operand)

end Criteria
