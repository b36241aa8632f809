import Criteria.Json.Record

set_option autoImplicit false

namespace Criteria

inductive ExpressionLimit where
  | unbounded
  | atMost (max : Nat)
deriving DecidableEq, Repr

namespace ExpressionLimit

def max? : ExpressionLimit → Option Nat
  | unbounded => none
  | atMost max => some max

def ofOption : Option Nat → ExpressionLimit
  | none => unbounded
  | some max => atMost max

def exceededBy (limit : ExpressionLimit) (count : Nat) : Bool :=
  match limit with
  | unbounded => false
  | atMost max => max < count

def json : ExpressionLimit → Json
  | unbounded => .null
  | atMost max => .number (.integer max)

def readJson (s : List Char) : Json.Read ExpressionLimit :=
  (Json.readOptionalCount s).map fun (max, rest) => (ofOption max, rest)

def ofJson (s : String) : Except JsonFault ExpressionLimit :=
  Json.finish (readJson s.toList)

end ExpressionLimit

end Criteria
