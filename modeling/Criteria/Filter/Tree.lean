import Criteria.Filter.Comparison
import Criteria.Filter.Position

set_option autoImplicit false

namespace Criteria

structure FieldRef where
  name : String
  position : Position
deriving DecidableEq, Repr

structure ParamRef where
  name : String
  position : Position
deriving DecidableEq, Repr

inductive Condition where
  | compare (op : Comparison) (param : ParamRef)
  | between (negated : Bool) (low high : ParamRef)
  | oneOf (negated : Bool) (param : ParamRef)
  | null (negated : Bool)
  | like (negated : Bool) (param : ParamRef)
deriving DecidableEq, Repr

namespace Condition

def params : Condition → List ParamRef
  | compare _ param => [param]
  | between _ low high => [low, high]
  | oneOf _ param => [param]
  | null _ => []
  | like _ param => [param]

def negated : Condition → Bool
  | compare _ _ => false
  | between negated _ _ => negated
  | oneOf negated _ => negated
  | null negated => negated
  | like negated _ => negated

end Condition

inductive Filter where
  | leaf (field : FieldRef) (condition : Condition)
  | group (op : Connective) (operands : List Filter)

namespace Filter

mutual

def size : Filter → Nat
  | leaf _ _ => 1
  | group _ operands => 1 + sizes operands

def sizes : List Filter → Nat
  | [] => 0
  | f :: rest => f.size + sizes rest

end

mutual

def parameters : Filter → List String
  | leaf _ condition => condition.params.map (·.name)
  | group _ operands => operandParameters operands

def operandParameters : List Filter → List String
  | [] => []
  | f :: rest => f.parameters ++ operandParameters rest

end

/-- The operands under one connective; a single operand stands for itself. -/
def join (op : Connective) : List Filter → Filter
  | [operand] => operand
  | operands => group op operands

end Filter

end Criteria
