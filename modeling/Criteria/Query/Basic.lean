import Criteria.Binding.Basic
import Criteria.Query.Compiled

set_option autoImplicit false

namespace Criteria

structure FilterModel where
  text : Option String
  parameters : Parameters := {}
  predefined : List Predicate := []

namespace FilterModel

/-- The filter of the text first, then the added predicates, which the limit does not count. -/
def compile (m : FilterModel) (catalog : Catalog) (coercions : CoercionRegistry)
    (limit : ExpressionLimit) : Except FilterError CompiledFilter :=
  let env : Environment := ⟨catalog, m.parameters, coercions⟩
  match (env.compileText limit m.text).1 with
  | .error e => .error e
  | .ok p? => .ok ⟨p?.toList ++ m.predefined⟩

def bind (m : FilterModel) (name : String) (v : Value) : Except FilterError FilterModel :=
  match m.parameters.bind name v with
  | .error e => .error e
  | .ok parameters => .ok { m with parameters }

def predefine (m : FilterModel) (p : Predicate) : FilterModel :=
  { m with predefined := m.predefined ++ [p] }

end FilterModel

structure Query where
  catalog : Catalog
  limit : ExpressionLimit
  rows : FilterModel
  count : FilterModel
  order : Option OrderSpec := none
  page : Page := {}
  distinct : Bool

inductive QueryStep where
  | bind (name : String) (v : Value)
  | bindAll (values : List (String × Value))
  | order (field : String) (direction : String)
  | orderBy (field : String) (direction : OrderDirection)
  | paginate (limit offset : Int)
  | setPage (page : Page)
  | setDistinct (distinct : Bool)
  | predefine (p : Predicate)
  | predefineWith (build : Catalog → Except FilterError Predicate)

namespace Query

def start (catalog : Catalog) (limit : ExpressionLimit) (text : Option String) (distinct : Bool) :
    Query :=
  { catalog, limit, rows := { text }, count := { text }, distinct }

def bind (q : Query) (name : String) (v : Value) : Query × Option FilterError :=
  match q.rows.bind name v with
  | .error e => (q, some e)
  | .ok rows =>
    let q := { q with rows }
    -- Both filters hold the same names, so this never refuses what the rows took.
    match q.count.bind name v with
    | .error e => (q, some e)
    | .ok count => ({ q with count }, none)

def bindAll (q : Query) : List (String × Value) → Query × Option FilterError
  | [] => (q, none)
  | (name, v) :: rest =>
    match q.bind name v with
    | (q, some e) => (q, some e)
    | (q, none) => q.bindAll rest

def orderBy (q : Query) (field : String) (direction : OrderDirection) :
    Except FilterError Query :=
  match q.catalog.field? field with
  | none => .error (.order (.unknownField field))
  | some f =>
    if f.orderable then .ok { q with order := some ⟨f.name, f.path, direction⟩ }
    else .error (.order (.notOrderable field))

def orderByName (q : Query) (field direction : String) : Except FilterError Query :=
  match OrderDirection.ofName direction with
  | .error e => .error (.order e)
  | .ok direction => q.orderBy field direction

def paginate (q : Query) (limit offset : Int) : Except FilterError Query :=
  match Page.checked limit offset with
  | .error e => .error e
  | .ok page => .ok { q with page }

def predefine (q : Query) (p : Predicate) : Query :=
  { q with rows := q.rows.predefine p, count := q.count.predefine p }

def orUnchanged (q : Query) : Except FilterError Query → Query × Option FilterError
  | .ok q => (q, none)
  | .error e => (q, some e)

def apply (q : Query) : QueryStep → Query × Option FilterError
  | .bind name v => q.bind name v
  | .bindAll values => q.bindAll values
  | .order field direction => q.orUnchanged (q.orderByName field direction)
  | .orderBy field direction => q.orUnchanged (q.orderBy field direction)
  | .paginate limit offset => q.orUnchanged (q.paginate limit offset)
  | .setPage page => ({ q with page }, none)
  | .setDistinct distinct => ({ q with distinct }, none)
  | .predefine p => (q.predefine p, none)
  | .predefineWith build => q.orUnchanged ((build q.catalog).map q.predefine)

def compile (q : Query) (coercions : CoercionRegistry) : Except FilterError CompiledQuery :=
  match q.rows.compile q.catalog coercions q.limit with
  | .error e => .error e
  | .ok filter => .ok ⟨filter, q.order, q.page, q.distinct, q.catalog.joins⟩

def compileCount (q : Query) (coercions : CoercionRegistry) (distinct : Bool) :
    Except FilterError CompiledCount :=
  match q.count.compile q.catalog coercions q.limit with
  | .error e => .error e
  | .ok filter => .ok ⟨filter, distinct, q.catalog.joins⟩

end Query

end Criteria
