import Criteria.Proofs.Schema.Walk
import Mathlib.Data.List.Infix

set_option autoImplicit false

namespace Criteria

def AttributeKind.isRelation : AttributeKind → Bool
  | relation _ _ => true
  | _ => false

namespace Schema

def next? (s : Schema) (t : EntityType) (segment : String) : Option EntityType := do
  let a ← t.attribute? segment
  let target ← a.kind.target?
  s.type? target

def typeAt? (s : Schema) (t : EntityType) (segments : List String) : Option EntityType :=
  segments.foldlM s.next? t

def attributeAt? (s : Schema) (t : EntityType) (segments : List String) : Option Attribute := do
  let owner ← s.typeAt? t segments.dropLast
  let last ← segments.getLast?
  owner.attribute? last

def endsOnRelation (s : Schema) (t : EntityType) (segments : List String) : Bool :=
  (s.attributeAt? t segments).any (·.kind.isRelation)

def crossings (s : Schema) (t : EntityType) (segments : List String) : List (List String) :=
  segments.inits.filter (s.endsOnRelation t)

inductive Inline (s : Schema) : EntityType → List String → EntityType → Prop
  | here {t : EntityType} : Inline s t [] t
  | step {t inner last : EntityType} {segment name target : String} {rest : List String} :
      t.attribute? segment = some ⟨name, .embedded target⟩ → s.type? target = some inner →
      Inline s inner rest last → Inline s t (segment :: rest) last

inductive Within (s : Schema) : EntityType → List String → Option TypeKey → Prop
  | structured {t last : EntityType} {steps : List String} :
      s.Inline t steps last → Within s t steps none
  | scalar {t last : EntityType} {steps : List String} {segment name : String} {key : TypeKey} :
      s.Inline t steps last → last.attribute? segment = some ⟨name, .scalar key⟩ →
      Within s t (steps ++ [segment]) (some key)

def crossing? (s : Schema) (t : EntityType) :
    List String → Option (EntityType × EntityType × Cardinality)
  | [] => none
  | segment :: rest =>
    match t.attribute? segment with
    | some ⟨_, .relation target cardinality⟩ =>
      if rest.isEmpty then (s.type? target).map fun next => (t, next, cardinality) else none
    | some ⟨_, .embedded target⟩ => (s.type? target).bind fun inner => s.crossing? inner rest
    | _ => none

variable {s : Schema} {t inner next last owner : EntityType} {a : Attribute}
  {segment name target : String} {cardinality : Cardinality} {before rest block steps : List String}

theorem next?_eq_some (found : t.attribute? segment = some a)
    (leads : a.kind.target? = some target) (declared : s.type? target = some next) :
    s.next? t segment = some next := by
  simp [next?, found, leads, declared]

theorem typeAt?_append (at? : s.typeAt? t before = some next) :
    s.typeAt? t (before ++ rest) = s.typeAt? next rest := by
  simp only [typeAt?] at at? ⊢
  rw [List.foldlM_append, at?]
  rfl

theorem endsOnRelation_nil : s.endsOnRelation t [] = false := by
  simp [endsOnRelation, attributeAt?]

theorem attributeAt?_append (at? : s.typeAt? t before = some next) (more : rest ≠ []) :
    s.attributeAt? t (before ++ rest) = s.attributeAt? next rest := by
  simp only [attributeAt?]
  rw [List.dropLast_append_of_ne_nil more, typeAt?_append at?, List.getLast?_append_of_ne_nil _ more]

theorem endsOnRelation_append (at? : s.typeAt? t before = some next) (more : rest ≠ []) :
    s.endsOnRelation t (before ++ rest) = s.endsOnRelation next rest := by
  simp only [endsOnRelation, attributeAt?_append at? more]

theorem attributeAt?_singleton : s.attributeAt? t [segment] = t.attribute? segment := by
  simp [attributeAt?, typeAt?]

theorem crossings_nil : s.crossings t [] = [] := by
  simp [crossings, endsOnRelation_nil]

theorem crossings_append (at? : s.typeAt? t before = some next) :
    s.crossings t (before ++ rest) =
      s.crossings t before ++ (s.crossings next rest).map (before ++ ·) := by
  have inits (xs : List String) : xs.inits = [] :: xs.inits.tail := by cases xs <;> simp
  have longer : ∀ more ∈ rest.inits.tail,
      s.endsOnRelation t (before ++ more) = s.endsOnRelation next more := by
    intro more listed
    apply endsOnRelation_append at?
    rintro rfl
    cases rest <;> simp at listed
  rw [crossings, List.inits_append, List.filter_append, List.filter_map, crossings]
  congr 2
  rw [crossings, inits rest, List.filter_cons_of_neg (by simp [endsOnRelation_nil])]
  exact List.filter_congr longer

theorem crossings_singleton (found : t.attribute? segment = some a) :
    s.crossings t [segment] = if a.kind.isRelation then [[segment]] else [] := by
  have ends : s.endsOnRelation t [segment] = a.kind.isRelation := by
    simp [endsOnRelation, attributeAt?_singleton, found]
  simp [crossings, endsOnRelation_nil, List.filter_cons, ends]

theorem Leads.exists_attribute {key : Option TypeKey} (leads : s.Leads t rest key)
    (nonempty : rest ≠ []) :
    ∃ a, s.attributeAt? t rest = some a ∧ (key = none ↔ a.kind.target?.isSome) := by
  induction leads with
  | here => exact absurd rfl nonempty
  | scalar found => exact ⟨_, attributeAt?_singleton.trans found, by simp [AttributeKind.target?]⟩
  | @further t next segment target a rest key found leads declared further ih =>
    cases rest with
    | nil =>
      cases further
      exact ⟨a, attributeAt?_singleton.trans found, by simp [leads]⟩
    | cons first rest =>
      obtain ⟨last, ends, scalar⟩ := ih (List.cons_ne_nil first rest)
      have at? : s.typeAt? t [segment] = some next := by
        simp [typeAt?, next?_eq_some found leads declared]
      exact ⟨last, (attributeAt?_append at? (List.cons_ne_nil first rest)).trans ends, scalar⟩

theorem Inline.concat (inline : s.Inline t steps last)
    (found : last.attribute? segment = some ⟨name, .embedded target⟩)
    (declared : s.type? target = some next) : s.Inline t (steps ++ [segment]) next := by
  induction inline with
  | here => exact .step found declared .here
  | step first inner _ ih => exact .step first inner (ih found)

theorem Inline.typeAt? (inline : s.Inline t steps last) : s.typeAt? t steps = some last := by
  induction inline with
  | here => rfl
  | step found declared _ ih =>
    simp only [Schema.typeAt?, List.foldlM_cons, next?_eq_some found rfl declared]
    exact ih

theorem Inline.crossings (inline : s.Inline t steps last) : s.crossings t steps = [] := by
  induction inline with
  | here => exact crossings_nil
  | @step t inner last segment _ _ rest found declared _ ih =>
    have at? : s.typeAt? t [segment] = some inner := by
      simp [Schema.typeAt?, next?_eq_some found rfl declared]
    have cut : s.crossings t ([segment] ++ rest) = _ := crossings_append at?
    rw [crossings_singleton found, ih] at cut
    exact cut

theorem Within.crossings {key : Option TypeKey} (within : s.Within t steps key) :
    s.crossings t steps = [] := by
  cases within with
  | structured inline => exact inline.crossings
  | scalar inline found =>
    rw [crossings_append inline.typeAt?, inline.crossings, crossings_singleton found]
    rfl

theorem crossing?_concat (inline : s.Inline t steps owner)
    (found : owner.attribute? segment = some ⟨name, .relation target cardinality⟩)
    (declared : s.type? target = some next) :
    s.crossing? t (steps ++ [segment]) = some (owner, next, cardinality) := by
  induction inline with
  | here => simp [crossing?, found, declared]
  | step first inner _ ih => simp [crossing?, first, inner, ih found]

theorem crossing?_eq_some (crosses : s.crossing? t block = some (owner, next, cardinality)) :
    ∃ steps segment name target, block = steps ++ [segment] ∧ s.Inline t steps owner ∧
      owner.attribute? segment = some ⟨name, .relation target cardinality⟩ ∧
      s.type? target = some next := by
  induction block generalizing t with
  | nil => cases crosses
  | cons segment rest ih =>
    rw [crossing?] at crosses
    split at crosses
    · next name target cardinality found =>
      obtain ⟨ends, crosses⟩ := Option.ite_none_right_eq_some.1 crosses
      obtain ⟨next, declared, same⟩ := Option.map_eq_some_iff.1 crosses
      cases same
      cases List.isEmpty_iff.1 ends
      exact ⟨[], segment, name, target, rfl, .here, found, declared⟩
    · next name target found =>
      obtain ⟨inner, declared, crosses⟩ := Option.bind_eq_some_iff.1 crosses
      obtain ⟨steps, relation, name', target', rfl, inline, last, next⟩ := ih crosses
      exact ⟨segment :: steps, relation, name', target', rfl, .step found declared inline, last, next⟩
    · cases crosses

theorem typeAt?_of_crossing? (crosses : s.crossing? t block = some (owner, next, cardinality)) :
    s.typeAt? t block = some next := by
  obtain ⟨steps, segment, name, target, rfl, inline, found, declared⟩ := crossing?_eq_some crosses
  rw [typeAt?_append inline.typeAt?]
  simp [typeAt?, next?_eq_some found rfl declared]

theorem crossings_of_crossing? (crosses : s.crossing? t block = some (owner, next, cardinality)) :
    s.crossings t block = [block] := by
  obtain ⟨steps, segment, name, target, rfl, inline, found, -⟩ := crossing?_eq_some crosses
  rw [crossings_append inline.typeAt?, inline.crossings, crossings_singleton found]
  rfl

theorem type?_of_crossing? (crosses : s.crossing? t block = some (owner, next, cardinality)) :
    s.type? next.name = some next := by
  obtain ⟨steps, segment, name, target, rfl, inline, found, declared⟩ := crossing?_eq_some crosses
  rw [name_of_type? declared]
  exact declared

end Schema

end Criteria
