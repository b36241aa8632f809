import Criteria.Number.Ieee.Text

set_option autoImplicit false

namespace Criteria

inductive JsonNumber where
  | integer (n : Int)
  | double (x : Ieee)
deriving DecidableEq

inductive Json where
  | null
  | bool (b : Bool)
  | number (n : JsonNumber)
  | string (s : String)
  | array (items : List Json)
  | object (members : List (String × Json))

inductive JsonFault where
  | malformed
  | mismatched
  | truncated
deriving DecidableEq, Repr

namespace Json

abbrev Read (α : Type) := Except JsonFault (α × List Char)

def escaped (c : Char) : List Char :=
  match c with
  | '"' => "\\\"".toList
  | '\\' => "\\\\".toList
  | '\x08' => "\\b".toList
  | '\x0c' => "\\f".toList
  | '\n' => "\\n".toList
  | '\r' => "\\r".toList
  | '\t' => "\\t".toList
  | c =>
    if c.toNat < 0x20 then
      "\\u00".toList ++ [Nat.digitChar (c.toNat / 16), Nat.digitChar (c.toNat % 16)]
    else
      [c]

def stringText (s : String) : List Char :=
  '"' :: s.toList.flatMap escaped ++ ['"']

def exponential (run : List Char) (exponent : Int) : List Char :=
  let fraction := run.drop 1
  run.take 1 ++ (if fraction = [] then [] else '.' :: fraction) ++
    'e' :: (if exponent < 0 then [] else ['+']) ++ Numeral.ofInt exponent

/-- Doubles have the shortest digits that read back and at least one digit after the point;
exponents of sixteen and more and of minus six and less are written out. -/
def doubleText (x : Ieee) : List Char :=
  let sign := if x.negative then ['-'] else []
  if !x.isFinite then "null".toList
  else if x.isZero then sign ++ "0.0".toList
  else
    let (run, places) := (x.shortest .even).layout
    sign ++
      if -5 < places ∧ places ≤ 16 then
        Ieee.positional run places ++ if run.length ≤ places.toNat then ".0".toList else []
      else
        exponential run (places - 1)

def numberText : JsonNumber → List Char
  | .integer n => Numeral.ofInt n
  | .double x => doubleText x

mutual

def text : Json → List Char
  | null => "null".toList
  | bool b => (if b then "true" else "false").toList
  | number n => numberText n
  | string s => stringText s
  | array items => '[' :: itemsText items ++ [']']
  | object members => '\x7b' :: membersText members ++ ['\x7d']

def itemsText : List Json → List Char
  | [] => []
  | [item] => item.text
  | item :: rest => item.text ++ ',' :: itemsText rest

def membersText : List (String × Json) → List Char
  | [] => []
  | [(key, item)] => stringText key ++ ':' :: item.text
  | (key, item) :: rest => stringText key ++ ':' :: item.text ++ ',' :: membersText rest

end

end Json

end Criteria
