import Criteria.Text.Quoted
import Criteria.Value.Basic

set_option autoImplicit false

namespace Criteria.Value

mutual

def shown : Value → List Char
  | null => "NULL".toList
  | bool b => (if b then "true" else "false").toList
  | int n => n.text
  | float x => x.text
  | decimal d => d.text
  | char c => Text.enclosed [c]
  | text s => Text.quoted s.toList
  | date t => Text.enclosed t.text
  | uuid u => Text.enclosed u.text
  | list items => '(' :: shownItems items ++ [')']

def shownItems : List Value → List Char
  | [] => []
  | [item] => item.shown
  | item :: rest => item.shown ++ ',' :: ' ' :: shownItems rest

end

def display (v : Value) : String :=
  String.ofList v.shown

end Criteria.Value
