import Criteria.Coercion.Dates

set_option autoImplicit false

namespace Criteria

inductive ParserBinding where
  | parser (p : ValueParser)
  | registryDates

structure CoercionRegistry where
  bindings : Std.TreeMap TypeKey ParserBinding := ∅
  dates : DateFormats := {}

namespace CoercionRegistry

def empty : CoercionRegistry :=
  {}

def seedBinding? : TypeKey → Option ParserBinding
  | .date => some .registryDates
  -- No other parser looks at date formats.
  | key => (ValueParser.builtin? [] key).map .parser

def bind (r : CoercionRegistry) (key : TypeKey) (b : ParserBinding) : CoercionRegistry :=
  { r with bindings := r.bindings.insert key b }

def seeded : CoercionRegistry :=
  TypeKey.builtin.foldl
    (fun r key =>
      match seedBinding? key with
      | some b => r.bind key b
      | none => r)
    empty

def binding? (r : CoercionRegistry) (key : TypeKey) : Option ParserBinding :=
  r.bindings[key]?

def contains (r : CoercionRegistry) (key : TypeKey) : Bool :=
  r.bindings.contains key

def keys (r : CoercionRegistry) : List TypeKey :=
  r.bindings.keys

def run (r : CoercionRegistry) : ParserBinding → ValueParser
  | .parser p => p
  | .registryDates => r.dates.parser

def parser? (r : CoercionRegistry) (key : TypeKey) : Option ValueParser :=
  (r.binding? key).map r.run

def register (r : CoercionRegistry) (key : TypeKey) (b : ParserBinding) :
    Bool × CoercionRegistry :=
  (r.contains key, r.bind key b)

def copy (r : CoercionRegistry) (key source : TypeKey) : Option Bool × CoercionRegistry :=
  match r.binding? source with
  | some b => (some (r.contains key), r.bind key b)
  | none => (none, r)

def unregister (r : CoercionRegistry) (key : TypeKey) : Bool × CoercionRegistry :=
  (r.contains key, { r with bindings := r.bindings.erase key })

/-- A value of the type asked for is returned as it is; an attribute without a scalar type has no
coercion. -/
def coerce (r : CoercionRegistry) (target : Option TypeKey) (v : Value) :
    Except CoercionError Value :=
  if v.isNull then
    .error .nullValue
  else
    match target with
    | none => .error (.noParser none)
    | some key =>
      if v.satisfies key then
        .ok v
      else
        match r.parser? key with
        | none => .error (.noParser (some key))
        | some p => p v

end CoercionRegistry

end Criteria
