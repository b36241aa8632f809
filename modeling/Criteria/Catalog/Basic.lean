import Criteria.Catalog.Field
import Criteria.Schema.Path

set_option autoImplicit false

namespace Criteria

structure Catalog where
  schema : Schema
  root : EntityType
  fields : Std.TreeMap String Field := ∅
  joins : JoinSet := {}

namespace Catalog

def start (schema : Schema) (root : String) : Except FilterError Catalog :=
  match schema.require root with
  | .error e => .error e
  | .ok root => .ok { schema, root }

def field? (c : Catalog) (name : String) : Option Field :=
  c.fields[name]?

def require (c : Catalog) (name : String) : Except FilterError Field :=
  match c.field? name with
  | some field => .ok field
  | none => .error (.unknownField name)

def toList (c : Catalog) : List Field :=
  c.fields.values

def size (c : Catalog) : Nat :=
  c.fields.size

def isEmpty (c : Catalog) : Bool :=
  c.fields.isEmpty

def register (c : Catalog) (name attributePath : String) (orderable : Bool)
    (parser : Option ValueParser) : Except FilterError (Field × Catalog) :=
  match c.field? name with
  | some _ => .error (.duplicateField name)
  | none =>
    match c.schema.resolve c.root c.joins attributePath with
    | .error e => .error e
    | .ok (path, joins) =>
      let field : Field := ⟨name, attributePath, path, orderable, parser⟩
      .ok (field, { c with fields := c.fields.insert name field, joins })

def add (c : Catalog) (spec : FieldSpec) : Except FilterError (Field × Catalog) :=
  c.register spec.name spec.attributePath spec.orderable spec.parser

/-- Adds fields up to the first that cannot be added; those before it stay. -/
def addAll (c : Catalog) : List FieldSpec → Catalog × Option FilterError
  | [] => (c, none)
  | spec :: specs =>
    match c.add spec with
    | .error e => (c, some e)
    | .ok (_, c) => c.addAll specs

end Catalog

end Criteria
