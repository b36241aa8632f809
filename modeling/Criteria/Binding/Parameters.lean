import Criteria.Error

set_option autoImplicit false

namespace Criteria

structure Parameters where
  values : Std.TreeMap String Value := ∅

namespace Parameters

def get? (ps : Parameters) (name : String) : Option Value :=
  ps.values[name]?

def bind (ps : Parameters) (name : String) (v : Value) : Except FilterError Parameters :=
  match ps.get? name with
  | some _ => .error (.duplicateParameter name)
  | none => .ok ⟨ps.values.insert name v⟩

/-- Binds values up to the first name that is bound already; those before it stay bound. -/
def bindAll (ps : Parameters) : List (String × Value) → Parameters × Option FilterError
  | [] => (ps, none)
  | (name, v) :: rest =>
    match ps.bind name v with
    | .error e => (ps, some e)
    | .ok ps => ps.bindAll rest

def toList (ps : Parameters) : List (String × Value) :=
  ps.values.toList

def sameEntries : List (String × Value) → List (String × Value) → Bool
  | [], [] => true
  | (name, v) :: rest, (name', v') :: rest' => name == name' && v == v' && sameEntries rest rest'
  | _, _ => false

def same (ps qs : Parameters) : Bool :=
  sameEntries ps.toList qs.toList

end Parameters

end Criteria
