import Criteria.Binding.Limit

set_option autoImplicit false

namespace Criteria

structure Config where
  maxExpressions : ExpressionLimit := .unbounded
  distinct : Bool := true
deriving DecidableEq, Repr

namespace Config

def shape : Json.RecordShape Config where
  fields :=
    [⟨"max_expressions", fun c s =>
        (ExpressionLimit.readJson s).map fun (limit, rest) =>
          ({ c with maxExpressions := limit }, rest)⟩,
      ⟨"distinct", fun c s =>
        (Json.readBool s).map fun (distinct, rest) => ({ c with distinct }, rest)⟩]
  mayOmit := true
  mayExtend := false

def ofJson (s : String) : Except JsonFault Config :=
  Json.finish (shape.readRecord {} s.toList)

def json (c : Config) : Json :=
  .object [("max_expressions", c.maxExpressions.json), ("distinct", .bool c.distinct)]

end Config

end Criteria
