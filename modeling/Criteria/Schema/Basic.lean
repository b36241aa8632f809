import Criteria.Value.TypeKey

set_option autoImplicit false

namespace Criteria

inductive Cardinality where
  | one
  | many
deriving DecidableEq, Repr

inductive AttributeKind where
  | scalar (key : TypeKey)
  | relation (target : String) (cardinality : Cardinality)
  | embedded (target : String)
deriving DecidableEq, Repr

structure Attribute where
  name : String
  kind : AttributeKind
deriving DecidableEq, Repr

structure EntityType where
  name : String
  attributes : List Attribute
deriving DecidableEq, Repr

namespace EntityType

def attribute? (t : EntityType) (name : String) : Option Attribute :=
  t.attributes.find? (·.name == name)

end EntityType

structure Schema where
  types : Std.TreeMap String (List Attribute) := ∅

namespace Schema

def add (s : Schema) (t : EntityType) : Schema :=
  ⟨s.types.insert t.name t.attributes⟩

def type? (s : Schema) (name : String) : Option EntityType :=
  s.types[name]?.map (⟨name, ·⟩)

def entityTypes (s : Schema) : List EntityType :=
  s.types.toList.map fun (name, attributes) => ⟨name, attributes⟩

def ofList (types : List EntityType) : Schema :=
  types.foldl add {}

theorem name_of_type? {s : Schema} {name : String} {t : EntityType} (h : s.type? name = some t) :
    t.name = name := by
  simp only [type?, Option.map_eq_some_iff] at h
  obtain ⟨attributes, _, rfl⟩ := h
  rfl

end Schema

end Criteria
