import Criteria.Schema.Basic
import Criteria.Text.Dotted

set_option autoImplicit false

namespace Criteria

inductive PathSource where
  | root
  | join (id : Nat)
deriving DecidableEq, Repr

namespace PathSource

def shown : PathSource → List Char
  | root => "root".toList
  | join id => 'j' :: Numeral.digits id

end PathSource

/-- `relation` names the embedded attributes on the way and the relation itself, with dots between
them; `source` is the type that has the relation. -/
structure Join where
  id : Nat
  parent : PathSource
  relation : String
  source : String
  target : String
  cardinality : Cardinality
deriving DecidableEq, Repr

structure JoinSet where
  joins : List Join := []
deriving DecidableEq, Repr

namespace JoinSet

def get? (js : JoinSet) (id : Nat) : Option Join :=
  js.joins[id]?

def find? (js : JoinSet) (parent : PathSource) (relation : String) : Option Nat :=
  (js.joins.find? fun j => j.parent == parent && j.relation == relation).map (·.id)

def push (js : JoinSet) (parent : PathSource) (relation source target : String)
    (cardinality : Cardinality) : Nat × JoinSet :=
  let id := js.joins.length
  (id, ⟨js.joins ++ [⟨id, parent, relation, source, target, cardinality⟩]⟩)

def require (js : JoinSet) (parent : PathSource) (relation source target : String)
    (cardinality : Cardinality) : Nat × JoinSet :=
  match js.find? parent relation with
  | some id => (id, js)
  | none => js.push parent relation source target cardinality

def truncate (js : JoinSet) (length : Nat) : JoinSet :=
  ⟨js.joins.take length⟩

variable {js later : JoinSet} {parent : PathSource} {relation source target : String}
  {cardinality : Cardinality}

theorem push_grows :
    js.joins <+: (js.push parent relation source target cardinality).2.joins :=
  List.prefix_append _ _

theorem require_grows :
    js.joins <+: (js.require parent relation source target cardinality).2.joins := by
  unfold require
  split
  · exact List.prefix_refl _
  · exact push_grows

theorem truncate_of_grows (grows : js.joins <+: later.joins) :
    later.truncate js.joins.length = js := by
  rw [truncate, ← List.prefix_iff_eq_take.1 grows]

end JoinSet

/-- The place of an attribute: where the path starts, the inline steps from there, and the type of
the scalar it ends on. A path that ends on a relation or an embedded value has no such type. -/
structure AttributePath where
  source : PathSource
  attributes : List String
  valueType : Option TypeKey
deriving DecidableEq, Repr

namespace AttributePath

def shown (p : AttributePath) : List Char :=
  p.source.shown ++ p.attributes.flatMap fun a => '.' :: a.toList

def display (p : AttributePath) : String :=
  String.ofList p.shown

end AttributePath

end Criteria
