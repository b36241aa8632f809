import Criteria.Predicate.Basic
import Criteria.Value.Display

set_option autoImplicit false

namespace Criteria

def Test.shown : Test → List Char
  | compare op v => op.symbol.toList ++ ' ' :: v.shown
  | between low high => "BETWEEN ".toList ++ low.shown ++ " AND ".toList ++ high.shown
  | oneOf values => "IN ".toList ++ (Value.list values).shown
  | null => "IS NULL".toList
  | like pattern => "LIKE ".toList ++ Text.quoted pattern.toList

namespace Predicate

def emptyGroup : Connective → List Char
  | .and => "TRUE".toList
  | .or => "FALSE".toList

mutual

def shown : Predicate → List Char
  | leaf path test => path.shown ++ ' ' :: test.shown
  | group op [] => emptyGroup op
  | group op (p :: rest) => '(' :: p.shown ++ shownRest op rest ++ [')']
  | not p =>
    if p.isGroup then "NOT ".toList ++ p.shown else "NOT (".toList ++ p.shown ++ [')']

def shownRest (op : Connective) : List Predicate → List Char
  | [] => []
  | p :: rest => ' ' :: op.symbol.toList ++ ' ' :: p.shown ++ shownRest op rest

end

def display (p : Predicate) : String :=
  String.ofList p.shown

end Predicate

end Criteria
