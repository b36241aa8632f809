import Criteria.Binding.Parameters
import Criteria.Catalog.Basic
import Criteria.Coercion.Registry
import Criteria.Filter.Tree
import Criteria.Predicate.Basic

set_option autoImplicit false

namespace Criteria

structure Environment where
  catalog : Catalog
  parameters : Parameters
  coercions : CoercionRegistry

namespace Environment

def raw (env : Environment) (param : ParamRef) : Except FilterError Value :=
  match env.parameters.get? param.name with
  | some v => .ok v
  | none => .error (.parameterNotBound param.name)

/-- The field's own parser goes before coercion by type, also for values that have the type. -/
def coerce (env : Environment) (field : Field) (v : Value) : Except CoercionError Value :=
  -- No parser is asked about null.
  if v.isNull then
    .error .nullValue
  else
    match field.parser with
    | some p => p v
    | none => env.coercions.coerce field.path.valueType v

def coerceFor (env : Environment) (field : Field) (param : ParamRef) (v : Value) :
    Except FilterError Value :=
  (env.coerce field v).mapError (.coercion param.name)

def argument (env : Environment) (field : Field) (param : ParamRef) : Except FilterError Value := do
  let v ← env.raw param
  env.coerceFor field param v

def argumentList (env : Environment) (field : Field) (param : ParamRef) :
    Except FilterError (List Value) := do
  match (← env.raw param).items? with
  | some items => items.mapM (env.coerceFor field param)
  | none => .error (.typeMismatch param.name .list)

def pattern (env : Environment) (field : Field) (param : ParamRef) : Except FilterError String := do
  match (← env.argument field param).text? with
  | some s => .ok s
  | none => .error (.typeMismatch param.name .text)

def test (env : Environment) (field : Field) : Condition → Except FilterError Test
  | .compare op param => do
    let v ← env.argument field param
    pure (.compare op v)
  | .between _ low high => do
    let low ← env.argument field low
    let high ← env.argument field high
    pure (.between low high)
  | .oneOf _ param => do
    let values ← env.argumentList field param
    pure (.oneOf values)
  | .null _ => pure .null
  | .like _ param => do
    let pattern ← env.pattern field param
    pure (.like pattern)

def leaf (env : Environment) (field : FieldRef) (condition : Condition) :
    Except FilterError Predicate := do
  let field ← env.catalog.require field.name
  let test ← env.test field condition
  pure (.leaf field.path test)

end Environment

end Criteria
