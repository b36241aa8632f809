import Criteria.Json.Basic
import Criteria.Value.Basic

set_option autoImplicit false

namespace Criteria.Value

def ofJsonNumber : JsonNumber → Value
  | .integer n =>
    match SizedInt.ofInt? .long n with
    | some n => int n
    | none => float (Ieee.ofRatio .double (n < 0) n.natAbs 1)
  | .double x => float x

mutual

def ofJson : Json → Value
  | .null => null
  | .bool b => bool b
  | .number n => ofJsonNumber n
  | .string s => text s
  | .array items => list (ofJsonItems items)
  | .object members => text (String.ofList (Json.object members).text)

def ofJsonItems : List Json → List Value
  | [] => []
  | item :: rest => ofJson item :: ofJsonItems rest

end

end Criteria.Value
