import Criteria.Filter.Lexeme

set_option autoImplicit false

namespace Criteria

inductive Expectation where
  | operand
  | attributeName
  | condition
  | negatable
  | null
  | parameter
  | parameterName
  | conjunction
  | closeParen
  | stop
deriving DecidableEq, Repr

def Expectation.message : Expectation → String
  | operand => "a field name or '('"
  | attributeName => "an attribute name after '.'"
  | condition => "a comparison operator"
  | negatable => "BETWEEN, IN or LIKE after NOT"
  | null => "NULL"
  | parameter => "a parameter such as ':name'"
  | parameterName => "a parameter name after ':'"
  | conjunction => "AND"
  | closeParen => "')'"
  | stop => "end of input"

def maxNesting : Nat :=
  64

inductive SyntaxFault where
  | unexpectedCharacter (c : Char)
  | unterminatedComment
  | nestedTooDeep
  | unexpected (found : Option Lexeme) (expected : Expectation)
deriving DecidableEq, Repr

def SyntaxFault.message : SyntaxFault → String
  | unexpectedCharacter c => "unexpected character '" ++ String.singleton c ++ "'"
  | unterminatedComment => "unterminated comment"
  | nestedTooDeep =>
    "expression nested deeper than " ++ String.ofList (Numeral.digits maxNesting) ++ " levels"
  | unexpected (some found) expected =>
    "unexpected " ++ found.display ++ ", expected " ++ expected.message
  | unexpected none expected => "unexpected <EOF>, expected " ++ expected.message

structure SyntaxError where
  position : Position
  fault : SyntaxFault
deriving DecidableEq, Repr

def SyntaxError.message (e : SyntaxError) : String :=
  "failed to parse query at line " ++ e.position.display ++ ": " ++ e.fault.message

end Criteria
