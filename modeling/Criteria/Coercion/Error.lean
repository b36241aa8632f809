import Criteria.Value.Display

set_option autoImplicit false

namespace Criteria

inductive CoercionError where
  | nullValue
  | noParser (target : Option TypeKey)
  | invalid (value : String) (target : String)
  | custom (message : String)
deriving DecidableEq

namespace CoercionError

def message : CoercionError → String
  | nullValue => "parameter cannot be null"
  | noParser (some key) => "no value parser registered for type: " ++ key.name
  | noParser none => "no value parser registered for type: structured attribute"
  | invalid value target => "could not parse '" ++ value ++ "' as " ++ target
  | custom message => message

def ofValue (v : Value) (target : String) : CoercionError :=
  invalid (String.ofList (v.scalarText?.getD v.shown)) target

end CoercionError

end Criteria
