import Criteria.Predicate.Backend
import Criteria.Predicate.Display

set_option autoImplicit false

namespace Criteria.Sql

def column (path : AttributePath) : List Char :=
  let source :=
    match path.source with
    | .root => ['c']
    | .join _ => path.source.shown
  let name :=
    match path.attributes with
    | [] => "id".toList
    | attributes => ['_'].intercalate (attributes.map String.toList)
  source ++ '.' :: name

def combined (op : Connective) (operands : List (List Char)) : List Char :=
  '(' :: (' ' :: op.symbol.toList ++ [' ']).intercalate operands ++ [')']

def renderer : Backend Unit (List Char) where
  test path test := pure (column path ++ ' ' :: test.shown)
  combine op operands := pure (combined op operands)
  negate operand := pure ("NOT (".toList ++ operand ++ [')'])

end Criteria.Sql
