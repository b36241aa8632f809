import Criteria.Coercion.Parser
import Criteria.Schema.Join

set_option autoImplicit false

namespace Criteria

structure Field where
  name : String
  attributePath : String
  path : AttributePath
  orderable : Bool
  parser : Option ValueParser

structure FieldSpec where
  attributePath : String
  alternative : Option String := none
  orderable : Bool := false
  parser : Option ValueParser := none

def FieldSpec.name (spec : FieldSpec) : String :=
  spec.alternative.getD spec.attributePath

end Criteria
