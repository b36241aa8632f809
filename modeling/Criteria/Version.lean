set_option autoImplicit false

namespace Criteria

def version : String :=
  "0.4.0"

end Criteria
