set_option autoImplicit false

namespace Criteria

inductive OrderDirection where
  | ascending
  | descending
deriving DecidableEq, Repr

inductive OrderError where
  | unknownDirection (direction : String)
  | unknownField (field : String)
  | notOrderable (field : String)
deriving DecidableEq, Repr

def OrderError.message : OrderError → String
  | unknownDirection direction => "order direction must be asc or desc, got '" ++ direction ++ "'"
  | unknownField field => "order field '" ++ field ++ "' does not exist"
  | notOrderable field => "field '" ++ field ++ "' is not orderable"

namespace OrderDirection

def name : OrderDirection → String
  | ascending => "asc"
  | descending => "desc"

def ofName (s : String) : Except OrderError OrderDirection :=
  if s = "asc" then .ok ascending
  else if s = "desc" then .ok descending
  else .error (.unknownDirection s)

end OrderDirection

end Criteria
