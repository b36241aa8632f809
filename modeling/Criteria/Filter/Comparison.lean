set_option autoImplicit false

namespace Criteria

inductive Comparison where
  | eq
  | ne
  | lt
  | le
  | gt
  | ge
deriving DecidableEq, Repr

def Comparison.symbol : Comparison → String
  | eq => "="
  | ne => "!="
  | lt => "<"
  | le => "<="
  | gt => ">"
  | ge => ">="

inductive Connective where
  | and
  | or
deriving DecidableEq, Repr

def Connective.symbol : Connective → String
  | and => "AND"
  | or => "OR"

end Criteria
