import Criteria.Proofs.Schema.Crossing
import Mathlib.Data.List.Nodup

set_option autoImplicit false

namespace Criteria

namespace JoinSet

inductive Chain (js : JoinSet) : PathSource → List Join → Prop
  | root : Chain js .root []
  | join {id : Nat} {j : Join} {above : List Join} :
      js.get? id = some j → Chain js j.parent above → Chain js (.join id) (above ++ [j])

def trail (chain : List Join) : List String :=
  chain.flatMap fun j => Text.segments j.relation

def start? (js : JoinSet) (s : Schema) (root : EntityType) : PathSource → Option EntityType
  | .root => some root
  | .join id => (js.get? id).bind fun j => s.type? j.target

inductive Grown (s : Schema) (root : EntityType) : JoinSet → Prop
  | none : Grown s root {}
  | push {js : JoinSet} {parent : PathSource} {relation : String} {start owner next : EntityType}
      {cardinality : Cardinality} :
      Grown s root js → js.start? s root parent = some start →
      s.crossing? start (Text.segments relation) = some (owner, next, cardinality) →
      js.find? parent relation = none →
      Grown s root (js.push parent relation owner.name next.name cardinality).2

variable {s : Schema} {root start owner next : EntityType} {js later : JoinSet} {id : Nat}
  {j : Join} {parent place : PathSource} {relation source target : String}
  {cardinality : Cardinality} {above : List Join}

theorem get?_push_length :
    (js.push parent relation source target cardinality).2.get? js.joins.length =
      some ⟨js.joins.length, parent, relation, source, target, cardinality⟩ := by
  simp [push, get?]

theorem get?_mono (grows : js.joins <+: later.joins) (present : js.get? id = some j) :
    later.get? id = some j := by
  obtain ⟨more, joins⟩ := grows
  have inside : id < js.joins.length := (List.getElem?_eq_some_iff.1 present).1
  rw [get?, ← joins, List.getElem?_append_left inside]
  exact present

theorem get?_push_cases
    (present : (js.push parent relation source target cardinality).2.get? id = some j) :
    js.get? id = some j ∨
      id = js.joins.length ∧ j = ⟨js.joins.length, parent, relation, source, target, cardinality⟩ := by
  by_cases inside : id < js.joins.length
  · left
    simpa [push, get?, List.getElem?_append_left inside] using present
  · right
    have bound := (List.getElem?_eq_some_iff.1 present).1
    have last : id = js.joins.length := by
      simp only [push, List.length_append, List.length_singleton] at bound
      omega
    subst last
    exact ⟨rfl, Option.some.inj (present.symm.trans get?_push_length)⟩

theorem start?_mono (grows : js.joins <+: later.joins)
    (starts : js.start? s root place = some start) : later.start? s root place = some start := by
  cases place with
  | root => exact starts
  | join id =>
    obtain ⟨j, present, declared⟩ := Option.bind_eq_some_iff.1 starts
    exact Option.bind_eq_some_iff.2 ⟨j, get?_mono grows present, declared⟩

theorem Chain.mono (grows : js.joins <+: later.joins) (chain : js.Chain place above) :
    later.Chain place above := by
  induction chain with
  | root => exact .root
  | join present _ ih => exact .join (get?_mono grows present) ih

theorem Chain.unique {other : List Join} (chain : js.Chain place above)
    (second : js.Chain place other) : above = other := by
  induction chain generalizing other with
  | root =>
    cases second
    rfl
  | join present _ ih =>
    cases second with
    | join present' chain' =>
      cases present.symm.trans present'
      rw [ih chain']

theorem trail_concat (chain : List Join) (j : Join) :
    trail (chain ++ [j]) = trail chain ++ Text.segments j.relation := by
  simp [trail]

theorem mem_joins_iff : j ∈ js.joins ↔ ∃ id, js.get? id = some j :=
  List.mem_iff_getElem?

theorem find?_eq_some (found : js.find? parent relation = some id) :
    ∃ j ∈ js.joins, j.id = id ∧ j.parent = parent ∧ j.relation = relation := by
  obtain ⟨j, first, same⟩ := Option.map_eq_some_iff.1 found
  have keys := List.find?_some first
  simp only [Bool.and_eq_true, beq_iff_eq] at keys
  exact ⟨j, List.mem_of_find?_eq_some first, same, keys⟩

theorem find?_eq_none_iff : js.find? parent relation = none ↔
    ∀ j ∈ js.joins, ¬ (j.parent = parent ∧ j.relation = relation) := by
  simp [find?]

namespace Grown

theorem id_eq (grown : js.Grown s root) (present : js.get? id = some j) : j.id = id := by
  induction grown with
  | none => cases present
  | push _ _ _ _ ih =>
    rcases get?_push_cases present with earlier | ⟨rfl, rfl⟩
    · exact ih earlier
    · rfl

theorem get?_id (grown : js.Grown s root) (present : j ∈ js.joins) : js.get? j.id = some j := by
  obtain ⟨id, present⟩ := mem_joins_iff.1 present
  rw [grown.id_eq present]
  exact present

theorem nodup (grown : js.Grown s root) :
    (js.joins.map fun j => (j.parent, j.relation)).Nodup := by
  induction grown with
  | none => exact List.nodup_nil
  | push _ _ _ fresh ih =>
    rw [find?_eq_none_iff] at fresh
    simp only [JoinSet.push, List.map_append, List.map_singleton]
    refine List.nodup_append.2 ⟨ih, List.nodup_singleton _, ?_⟩
    intro key listed last member same
    obtain ⟨j, present, rfl⟩ := List.mem_map.1 listed
    cases List.mem_singleton.1 member
    exact fresh j present (Prod.mk.inj same)

theorem find?_eq_some_iff (grown : js.Grown s root) : js.find? parent relation = some id ↔
    ∃ j, js.get? id = some j ∧ j.parent = parent ∧ j.relation = relation := by
  constructor
  · intro found
    obtain ⟨j, present, rfl, keys⟩ := find?_eq_some found
    exact ⟨j, grown.get?_id present, keys⟩
  · intro given
    obtain ⟨j, present, rfl, rfl⟩ := given
    have listed : j ∈ js.joins := mem_joins_iff.2 ⟨id, present⟩
    cases found : js.find? j.parent j.relation with
    | none => exact absurd ⟨rfl, rfl⟩ (find?_eq_none_iff.1 found j listed)
    | some other =>
      obtain ⟨k, present', rfl, parents, relations⟩ := find?_eq_some found
      have keys : (k.parent, k.relation) = (j.parent, j.relation) := by rw [parents, relations]
      rw [List.inj_on_of_nodup_map grown.nodup present' listed keys, grown.id_eq present]

theorem declared (grown : js.Grown s root) (present : js.get? id = some j) :
    ∃ start owner next, js.start? s root j.parent = some start ∧
      s.crossing? start (Text.segments j.relation) = some (owner, next, j.cardinality) ∧
      j.source = owner.name ∧ j.target = next.name := by
  induction grown with
  | none => cases present
  | @push js _ _ start owner next _ _ starts crosses _ ih =>
    rcases get?_push_cases present with earlier | ⟨rfl, rfl⟩
    · obtain ⟨start, owner, next, starts, crosses, names⟩ := ih earlier
      exact ⟨start, owner, next, start?_mono push_grows starts, crosses, names⟩
    · exact ⟨start, owner, next, start?_mono push_grows starts, crosses, rfl, rfl⟩

theorem parent_lt (grown : js.Grown s root) (present : js.get? id = some j) {parent : Nat}
    (below : j.parent = .join parent) : parent < id := by
  induction grown with
  | none => cases present
  | @push js _ _ _ _ _ _ _ starts _ _ ih =>
    rcases get?_push_cases present with earlier | ⟨rfl, rfl⟩
    · exact ih earlier
    · cases below
      obtain ⟨above, present, -⟩ := Option.bind_eq_some_iff.1 starts
      exact (List.getElem?_eq_some_iff.1 present).1

theorem start?_join (grown : js.Grown s root) (present : js.get? id = some j)
    (starts : js.start? s root j.parent = some start)
    (crosses : s.crossing? start (Text.segments j.relation) = some (owner, next, j.cardinality)) :
    js.start? s root (.join id) = some next := by
  obtain ⟨start', owner', next', starts', crosses', -, target⟩ := grown.declared present
  cases starts.symm.trans starts'
  cases crosses.symm.trans crosses'
  exact Option.bind_eq_some_iff.2 ⟨j, present, target ▸ Schema.type?_of_crossing? crosses⟩

theorem exists_chain (grown : js.Grown s root) (starts : js.start? s root place = some start) :
    ∃ above, js.Chain place above := by
  induction grown generalizing place start with
  | none =>
    cases place with
    | root => exact ⟨[], .root⟩
    | join id => cases starts
  | @push js _ _ _ _ _ _ grown starts' _ _ ih =>
    cases place with
    | root => exact ⟨[], .root⟩
    | join id =>
      obtain ⟨j, present, declared⟩ := Option.bind_eq_some_iff.1 starts
      rcases get?_push_cases present with earlier | ⟨rfl, rfl⟩
      · have starts : js.start? s root (.join id) = some start :=
          Option.bind_eq_some_iff.2 ⟨j, earlier, declared⟩
        obtain ⟨above, chain⟩ := ih starts
        exact ⟨above, chain.mono push_grows⟩
      · obtain ⟨above, chain⟩ := ih starts'
        exact ⟨_, .join get?_push_length (chain.mono push_grows)⟩

theorem exists_chain_join (grown : js.Grown s root) (inside : id < js.joins.length) :
    ∃ above, js.Chain (.join id) above := by
  have present : js.get? id = some _ := List.getElem?_eq_getElem inside
  obtain ⟨start, owner, next, starts, crosses, -⟩ := grown.declared present
  exact grown.exists_chain (grown.start?_join present starts crosses)

theorem typeAt?_trail (grown : js.Grown s root) (chain : js.Chain place above) :
    s.typeAt? root (trail above) = js.start? s root place := by
  induction chain with
  | root => rfl
  | join present chain ih =>
    obtain ⟨start, owner, next, starts, crosses, -⟩ := grown.declared present
    rw [grown.start?_join present starts crosses, trail_concat,
      Schema.typeAt?_append (ih.trans starts)]
    exact Schema.typeAt?_of_crossing? crosses

theorem crossings_concat (grown : js.Grown s root) (present : js.get? id = some j)
    (chain : js.Chain j.parent above) : s.crossings root (trail (above ++ [j])) =
      s.crossings root (trail above) ++ [trail (above ++ [j])] := by
  obtain ⟨start, owner, next, starts, crosses, -⟩ := grown.declared present
  have leads := (grown.typeAt?_trail chain).trans starts
  rw [trail_concat, Schema.crossings_append leads, Schema.crossings_of_crossing? crosses]
  rfl

theorem crossings_trail_ne_nil (grown : js.Grown s root) (chain : js.Chain (.join id) above) :
    s.crossings root (trail above) ≠ [] := by
  cases chain with
  | join present chain =>
    rw [grown.crossings_concat present chain]
    exact List.concat_ne_nil _ _

theorem getLast?_crossings_trail (grown : js.Grown s root) (chain : js.Chain place above) :
    (s.crossings root (trail above)).getLast?.getD [] = trail above := by
  cases chain with
  | root => rw [trail, List.flatMap_nil, Schema.crossings_nil]; rfl
  | join present chain => rw [grown.crossings_concat present chain, List.getLast?_concat]; rfl

theorem trail_concat_inj {ks : JoinSet} {id' : Nat} {k : Join} {other : List Join}
    (grown : js.Grown s root) (grown' : ks.Grown s root) (present : js.get? id = some j)
    (chain : js.Chain j.parent above) (present' : ks.get? id' = some k)
    (chain' : ks.Chain k.parent other) (same : trail (above ++ [j]) = trail (other ++ [k])) :
    trail above = trail other ∧ j.relation = k.relation := by
  -- Both parents end at the last crossing but one, so the blocks behind them agree too.
  have crossings := grown.crossings_concat present chain
  rw [same, grown'.crossings_concat present' chain'] at crossings
  have shorter := (List.append_inj_left' crossings rfl).symm
  have parents : trail above = trail other := by
    rw [← grown.getLast?_crossings_trail chain, shorter, grown'.getLast?_crossings_trail chain']
  rw [trail_concat, trail_concat, parents, List.append_cancel_left_eq] at same
  refine ⟨parents, ?_⟩
  rw [← Text.dotted_segments j.relation, same, Text.dotted_segments]

theorem chain_injective (grown : js.Grown s root) {other : List Join} {second : PathSource}
    (chain : js.Chain place above) (chain' : js.Chain second other)
    (same : trail above = trail other) : place = second := by
  induction chain generalizing second other with
  | root =>
    cases chain' with
    | root => rfl
    | join present chain' =>
      refine absurd ?_ (grown.crossings_trail_ne_nil (.join present chain'))
      rw [← same]
      exact Schema.crossings_nil
  | @join id j above present chain ih =>
    cases chain' with
    | root =>
      refine absurd ?_ (grown.crossings_trail_ne_nil (.join present chain))
      rw [same]
      exact Schema.crossings_nil
    | @join id' k other present' chain' =>
      obtain ⟨parents, relations⟩ := grown.trail_concat_inj grown present chain present' chain' same
      have found := grown.find?_eq_some_iff.2 ⟨j, present, rfl, rfl⟩
      rw [ih chain' parents, relations, grown.find?_eq_some_iff.2 ⟨k, present', rfl, rfl⟩] at found
      cases found
      rfl

theorem require (grown : js.Grown s root) (starts : js.start? s root parent = some start)
    (crosses : s.crossing? start (Text.segments relation) = some (owner, next, cardinality)) :
    let required := js.require parent relation owner.name next.name cardinality
    required.2.Grown s root ∧ js.joins <+: required.2.joins ∧
      ∃ j, required.2.get? required.1 = some j ∧ j.parent = parent ∧ j.relation = relation ∧
        required.2.start? s root (.join required.1) = some next ∧
        ∀ k ∈ required.2.joins, k ∈ js.joins ∨ k = j := by
  unfold JoinSet.require
  split
  · next id found =>
    obtain ⟨j, present, rfl, rfl⟩ := grown.find?_eq_some_iff.1 found
    obtain ⟨start', owner', next', starts', crosses', -⟩ := grown.declared present
    have leads := grown.start?_join present starts' crosses'
    cases starts.symm.trans starts'
    cases crosses.symm.trans crosses'
    exact ⟨grown, List.prefix_refl _, j, present, rfl, rfl, leads, fun k listed => .inl listed⟩
  · next fresh =>
    have grown' := Grown.push grown starts crosses fresh
    let made : Join := ⟨js.joins.length, parent, relation, owner.name, next.name, cardinality⟩
    have present : (js.push parent relation owner.name next.name cardinality).2.get?
        js.joins.length = some made := get?_push_length
    have leads := grown'.start?_join present (start?_mono push_grows starts) crosses
    refine ⟨grown', push_grows, made, present, rfl, rfl, leads, fun k listed => ?_⟩
    exact (List.mem_append.1 listed).imp_right List.mem_singleton.1

end Grown

end JoinSet

end Criteria
