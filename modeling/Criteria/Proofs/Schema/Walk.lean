import Criteria.Schema.Path

set_option autoImplicit false

namespace Criteria

def AttributeKind.target? : AttributeKind → Option String
  | scalar _ => none
  | relation target _ => some target
  | embedded target => some target

namespace Schema

/-- Each segment is an attribute of the type that those before it lead to, and only the last may be
a scalar; the type of that scalar is what the segments lead to. -/
inductive Leads (s : Schema) : EntityType → List String → Option TypeKey → Prop
  | here {t : EntityType} : Leads s t [] none
  | scalar {t : EntityType} {segment name : String} {key : TypeKey} :
      t.attribute? segment = some ⟨name, .scalar key⟩ → Leads s t [segment] (some key)
  | further {t next : EntityType} {segment target : String} {a : Attribute} {rest : List String}
      {key : Option TypeKey} :
      t.attribute? segment = some a → a.kind.target? = some target → s.type? target = some next →
      Leads s next rest key → Leads s t (segment :: rest) key

inductive Breaks (s : Schema) : EntityType → List String → FilterError → Prop
  | unknown {t : EntityType} {segment : String} {rest : List String} :
      t.attribute? segment = none → Breaks s t (segment :: rest) (.unknownAttribute t.name segment)
  | continued {t : EntityType} {segment next name : String} {key : TypeKey} {rest : List String} :
      t.attribute? segment = some ⟨name, .scalar key⟩ →
      Breaks s t (segment :: next :: rest) (.unknownAttribute (t.name ++ "." ++ segment) next)
  | undeclared {t : EntityType} {segment target : String} {a : Attribute} {rest : List String} :
      t.attribute? segment = some a → a.kind.target? = some target → s.type? target = none →
      Breaks s t (segment :: rest) (.unknownType target)
  | further {t next : EntityType} {segment target : String} {a : Attribute} {rest : List String}
      {e : FilterError} :
      t.attribute? segment = some a → a.kind.target? = some target → s.type? target = some next →
      Breaks s next rest e → Breaks s t (segment :: rest) e

variable {s : Schema}

theorem require_of_type? {name : String} {t : EntityType} (declared : s.type? name = some t) :
    s.require name = .ok t := by
  simp [require, declared]

theorem require_of_undeclared {name : String} (undeclared : s.type? name = none) :
    s.require name = .error (.unknownType name) := by
  simp [require, undeclared]

section Step

variable {t next : EntityType} {segment name target : String} {a : Attribute}
  {cardinality : Cardinality} {key : TypeKey} {source : PathSource} {steps : List String}
  {joins : JoinSet}

theorem walk_unknown (unknown : t.attribute? segment = none) (rest : List String) :
    s.walk (segment :: rest) t source steps joins =
      (.error (.unknownAttribute t.name segment), joins) := by
  simp [walk, unknown]

theorem walk_scalar (found : t.attribute? segment = some ⟨name, .scalar key⟩) :
    s.walk [segment] t source steps joins =
      (.ok ⟨source, steps ++ [segment], some key⟩, joins) := by
  simp [walk, found]

theorem walk_continued (found : t.attribute? segment = some ⟨name, .scalar key⟩) (after : String)
    (rest : List String) :
    s.walk (segment :: after :: rest) t source steps joins =
      (.error (.unknownAttribute (t.name ++ "." ++ segment) after), joins) := by
  simp [walk, found]

theorem walk_embedded (found : t.attribute? segment = some ⟨name, .embedded target⟩)
    (declared : s.type? target = some next) (rest : List String) :
    s.walk (segment :: rest) t source steps joins =
      s.walk rest next source (steps ++ [segment]) joins := by
  simp [walk, found, require_of_type? declared]

theorem walk_relation (found : t.attribute? segment = some ⟨name, .relation target cardinality⟩)
    (declared : s.type? target = some next) (rest : List String) :
    let required := joins.require source (Text.dotted (steps ++ [segment])) t.name next.name
      cardinality
    s.walk (segment :: rest) t source steps joins =
      s.walk rest next (.join required.1) [] required.2 := by
  simp [walk, found, require_of_type? declared]

theorem walk_undeclared (found : t.attribute? segment = some a)
    (leads : a.kind.target? = some target) (undeclared : s.type? target = none)
    (rest : List String) :
    s.walk (segment :: rest) t source steps joins = (.error (.unknownType target), joins) := by
  obtain ⟨name, kind⟩ := a
  cases kind with
  | scalar key => cases leads
  | relation target cardinality =>
    cases leads
    simp [walk, found, require_of_undeclared undeclared]
  | embedded target =>
    cases leads
    simp [walk, found, require_of_undeclared undeclared]

theorem walk_further (found : t.attribute? segment = some a)
    (leads : a.kind.target? = some target) (declared : s.type? target = some next)
    (rest : List String) :
    ∃ source' steps' joins', joins.joins <+: joins'.joins ∧
      s.walk (segment :: rest) t source steps joins = s.walk rest next source' steps' joins' := by
  obtain ⟨name, kind⟩ := a
  cases kind with
  | scalar key => cases leads
  | relation target cardinality =>
    cases leads
    exact ⟨_, _, _, JoinSet.require_grows, walk_relation found declared rest⟩
  | embedded target =>
    cases leads
    exact ⟨_, _, _, List.prefix_refl _, walk_embedded found declared rest⟩

end Step

variable {root t : EntityType} {segments : List String} {path : String} {key : Option TypeKey}
  {e : FilterError} {joins : JoinSet}

theorem Leads.walk (leads : s.Leads t segments key) (source : PathSource) (steps : List String)
    (joins : JoinSet) :
    ∃ p after, s.walk segments t source steps joins = (.ok p, after) ∧ p.valueType = key := by
  induction leads generalizing source steps joins with
  | here => exact ⟨_, _, rfl, rfl⟩
  | scalar found => exact ⟨_, _, walk_scalar found, rfl⟩
  | further found leads declared _ ih =>
    obtain ⟨source', steps', joins', -, step⟩ := walk_further found leads declared _
    rw [step]
    exact ih source' steps' joins'

theorem Breaks.walk (breaks : s.Breaks t segments e) (source : PathSource) (steps : List String)
    (joins : JoinSet) : ∃ after, joins.joins <+: after.joins ∧
      s.walk segments t source steps joins = (.error e, after) := by
  induction breaks generalizing source steps joins with
  | unknown unknown => exact ⟨joins, List.prefix_refl _, walk_unknown unknown _⟩
  | continued found => exact ⟨joins, List.prefix_refl _, walk_continued found _ _⟩
  | undeclared found leads undeclared =>
    exact ⟨joins, List.prefix_refl _, walk_undeclared found leads undeclared _⟩
  | further found leads declared _ ih =>
    obtain ⟨source', steps', joins', grows, step⟩ := walk_further found leads declared _
    obtain ⟨after, grows', stopped⟩ := ih source' steps' joins'
    exact ⟨after, grows.trans grows', step.trans stopped⟩

theorem leads_or_breaks (s : Schema) (segments : List String) (t : EntityType) :
    (∃ key, s.Leads t segments key) ∨ ∃ e, s.Breaks t segments e := by
  induction segments generalizing t with
  | nil => exact .inl ⟨none, .here⟩
  | cons segment rest ih =>
    cases found : t.attribute? segment with
    | none => exact .inr ⟨_, .unknown found⟩
    | some a =>
      obtain ⟨name, kind⟩ := a
      cases leads : kind.target? with
      | none =>
        cases kind with
        | scalar key =>
          cases rest with
          | nil => exact .inl ⟨some key, .scalar found⟩
          | cons next rest => exact .inr ⟨_, .continued found⟩
        | relation | embedded => cases leads
      | some target =>
        cases declared : s.type? target with
        | none => exact .inr ⟨_, .undeclared found leads declared⟩
        | some next =>
          rcases ih next with ⟨key, further⟩ | ⟨e, further⟩
          · exact .inl ⟨key, .further found leads declared further⟩
          · exact .inr ⟨e, .further found leads declared further⟩

theorem Leads.resolveOver (leads : s.Leads root (Text.segments path) key) (joins : JoinSet) :
    ∃ p after, s.resolveOver root joins path = (.ok p, after) ∧ p.valueType = key := by
  obtain ⟨p, after, arrived, type⟩ := leads.walk .root [] joins
  exact ⟨p, after, by simp [Schema.resolveOver, arrived], type⟩

theorem Breaks.resolveOver (breaks : s.Breaks root (Text.segments path) e) (joins : JoinSet) :
    s.resolveOver root joins path = (.error e, joins) := by
  obtain ⟨after, grows, stopped⟩ := breaks.walk .root [] joins
  simp [Schema.resolveOver, stopped, JoinSet.truncate_of_grows grows]

theorem resolveOver_eq_ok_iff :
    (∃ p after, s.resolveOver root joins path = (.ok p, after) ∧ p.valueType = key) ↔
      s.Leads root (Text.segments path) key := by
  constructor
  · intro given
    obtain ⟨p, after, ok, rfl⟩ := given
    rcases s.leads_or_breaks (Text.segments path) root with ⟨key, leads⟩ | ⟨e, breaks⟩
    · obtain ⟨q, later, same, rfl⟩ := leads.resolveOver joins
      cases ok.symm.trans same
      exact leads
    · cases ok.symm.trans (breaks.resolveOver joins)
  · intro leads
    exact leads.resolveOver joins

theorem resolveOver_eq_error_iff {after : JoinSet} :
    s.resolveOver root joins path = (.error e, after) ↔
      s.Breaks root (Text.segments path) e ∧ after = joins := by
  constructor
  · intro failed
    rcases s.leads_or_breaks (Text.segments path) root with ⟨key, leads⟩ | ⟨e', breaks⟩
    · obtain ⟨p, later, ok, -⟩ := leads.resolveOver joins
      cases ok.symm.trans failed
    · cases failed.symm.trans (breaks.resolveOver joins)
      exact ⟨breaks, rfl⟩
  · intro given
    obtain ⟨breaks, rfl⟩ := given
    exact breaks.resolveOver _

end Schema

end Criteria
