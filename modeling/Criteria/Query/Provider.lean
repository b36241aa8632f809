import Criteria.Config
import Criteria.Query.Basic

set_option autoImplicit false

namespace Criteria

structure Provider where
  catalog : Catalog
  coercions : CoercionRegistry
  config : Config := {}

namespace Provider

def query (p : Provider) (text : Option String) : Query :=
  .start p.catalog p.config.maxExpressions text p.config.distinct

def compile (p : Provider) (q : Query) : Except FilterError CompiledQuery :=
  q.compile p.coercions

def compileCount (p : Provider) (q : Query) (distinct : Bool) : Except FilterError CompiledCount :=
  q.compileCount p.coercions distinct

end Provider

end Criteria
