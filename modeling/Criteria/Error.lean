import Criteria.Coercion.Error
import Criteria.Filter.SyntaxError
import Criteria.Query.Direction

set_option autoImplicit false

namespace Criteria

inductive ParameterShape where
  | list
  | text
deriving DecidableEq, Repr

def ParameterShape.name : ParameterShape → String
  | list => "a list"
  | text => "text"

inductive FilterError where
  | malformed (e : SyntaxError)
  | unknownField (field : String)
  | unknownAttribute (owner attributeName : String)
  | unknownType (name : String)
  | parameterNotBound (parameter : String)
  | duplicateParameter (parameter : String)
  | duplicateField (field : String)
  | coercion (parameter : String) (cause : CoercionError)
  | typeMismatch (parameter : String) (expected : ParameterShape)
  | limitExceeded (limit : Nat)
  | order (cause : OrderError)
  | pagination (limit offset : Int)
deriving DecidableEq

inductive ErrorKind where
  | malformed
  | unknownField
  | unknownAttribute
  | parameterNotBound
  | duplicateParameter
  | duplicateField
  | valueCoercion
  | typeMismatch
  | expressionLimitExceeded
  | invalidOrder
  | invalidPagination
deriving DecidableEq, Repr

def ErrorKind.label : ErrorKind → String
  | malformed => "syntax"
  | unknownField => "unknown_field"
  | unknownAttribute => "unknown_attribute"
  | parameterNotBound => "parameter_not_bound"
  | duplicateParameter => "duplicate_parameter"
  | duplicateField => "duplicate_field"
  | valueCoercion => "value_coercion"
  | typeMismatch => "type_mismatch"
  | expressionLimitExceeded => "expression_limit_exceeded"
  | invalidOrder => "invalid_order"
  | invalidPagination => "invalid_pagination"

namespace FilterError

def kind : FilterError → ErrorKind
  | malformed _ => .malformed
  | unknownField _ => .unknownField
  | unknownAttribute _ _ => .unknownAttribute
  | unknownType _ => .unknownAttribute
  | parameterNotBound _ => .parameterNotBound
  | duplicateParameter _ => .duplicateParameter
  | duplicateField _ => .duplicateField
  | coercion _ _ => .valueCoercion
  | typeMismatch _ _ => .typeMismatch
  | limitExceeded _ => .expressionLimitExceeded
  | order _ => .invalidOrder
  | pagination _ _ => .invalidPagination

def message : FilterError → String
  | malformed e => e.message
  | unknownField field => "field '" ++ field ++ "' does not exist"
  | unknownAttribute owner attributeName =>
    "unknown attribute '" ++ attributeName ++ "' on '" ++ owner ++ "'"
  | unknownType name => "unknown schema type '" ++ name ++ "'"
  | parameterNotBound parameter =>
    "parameter '" ++ parameter ++ "' not found in the bound parameters"
  | duplicateParameter parameter => "parameter '" ++ parameter ++ "' has already been set"
  | duplicateField field => "field '" ++ field ++ "' has already been registered"
  | coercion parameter cause => "error parsing parameter '" ++ parameter ++ "': " ++ cause.message
  | typeMismatch parameter expected => "parameter '" ++ parameter ++ "' must be " ++ expected.name
  | limitExceeded limit =>
    "exceeded maximum number of expressions; number of expressions can not exceed " ++
      String.ofList (Numeral.digits limit)
  | order cause => cause.message
  | pagination limit offset =>
    "invalid pagination (limit " ++ String.ofList (Numeral.ofInt limit) ++ ", offset " ++
      String.ofList (Numeral.ofInt offset) ++ "): values must not be negative"

def cause? : FilterError → Option String
  | coercion _ cause => some cause.message
  | order cause => some cause.message
  | _ => none

end FilterError

end Criteria
