import Criteria.Proofs.Schema.Sharing
import Mathlib.Data.Set.Function

set_option autoImplicit false

namespace Criteria

def PathSource.renumbered (renumber : Nat → Nat) : PathSource → PathSource
  | root => root
  | join id => join (renumber id)

def Join.renumbered (renumber : Nat → Nat) (j : Join) : Join :=
  { j with id := renumber j.id, parent := j.parent.renumbered renumber }

def AttributePath.renumbered (renumber : Nat → Nat) (p : AttributePath) : AttributePath :=
  { p with source := p.source.renumbered renumber }

theorem Schema.Leads.unique {s : Schema} {t : EntityType} {segments : List String}
    {key other : Option TypeKey} (leads : s.Leads t segments key)
    (second : s.Leads t segments other) : key = other := by
  obtain ⟨p, after, arrived, rfl⟩ := leads.walk .root [] {}
  obtain ⟨q, later, arrived', rfl⟩ := second.walk .root [] {}
  cases arrived.symm.trans arrived'
  rfl

namespace JoinSet

structure Renumbered (js : JoinSet) (renumber : Nat → Nat) (ks : JoinSet) : Prop where
  bijective : Set.BijOn renumber (Set.Iio js.joins.length) (Set.Iio ks.joins.length)
  joins : ∀ id j, js.get? id = some j → ks.get? (renumber id) = some (j.renumbered renumber)

def Matches (js ks : JoinSet) (place other : PathSource) : Prop :=
  ∃ above above', js.Chain place above ∧ ks.Chain other above' ∧ trail above = trail above'

variable {s : Schema} {root : EntityType} {js ks : JoinSet} {segments : List String}
  {p q : AttributePath} {above above' : List Join} {place other : PathSource}
  {renumber : Nat → Nat}

theorem eq_of_grows (grown : ks.Grown s root) (grows : js.joins <+: ks.joins)
    (old : ∀ j ∈ ks.joins, j ∈ js.joins) : ks = js := by
  obtain ⟨more, joins⟩ := grows
  have nodup := grown.nodup
  rw [← joins, List.map_append, List.nodup_append] at nodup
  cases more with
  | nil => exact congrArg JoinSet.mk (by simpa using joins.symm)
  | cons j more =>
    have listed : j ∈ js.joins := old j (joins ▸ List.mem_append_right _ List.mem_cons_self)
    exact absurd rfl (nodup.2.2 _ (List.mem_map_of_mem listed) _ (by simp))

theorem Grown.join_eq (grown : js.Grown s root) (grown' : ks.Grown s root) {id id' : Nat}
    {j k : Join} (present : js.get? id = some j) (present' : ks.get? id' = some k)
    (same : Matches js ks (.join id) (.join id')) :
    Matches js ks j.parent k.parent ∧ k = { j with id := id', parent := k.parent } := by
  obtain ⟨_, _, chain, chain', trails⟩ := same
  cases chain with
  | join found chain =>
    cases chain' with
    | join found' chain' =>
      cases present.symm.trans found
      cases present'.symm.trans found'
      obtain ⟨parents, relations⟩ :=
        grown.trail_concat_inj grown' present chain present' chain' trails
      refine ⟨⟨_, _, chain, chain', parents⟩, ?_⟩
      -- From parents that the same segments lead to, one relation is declared one way.
      obtain ⟨start, owner, next, starts, crosses, source, target⟩ := grown.declared present
      obtain ⟨start', owner', next', starts', crosses', source', target'⟩ :=
        grown'.declared present'
      rw [← grown.typeAt?_trail chain, parents, grown'.typeAt?_trail chain'] at starts
      cases starts.symm.trans starts'
      rw [relations] at crosses
      have declared := crosses.symm.trans crosses'
      simp only [Option.some.injEq, Prod.mk.injEq] at declared
      obtain ⟨rfl, rfl, cardinality⟩ := declared
      have number := grown'.id_eq present'
      cases k
      rw [Join.mk.injEq]
      exact ⟨number, rfl, relations.symm, source'.trans source.symm, target'.trans target.symm,
        cardinality.symm⟩

def Follows (renumber : Nat → Nat) (js ks : JoinSet) : Prop :=
  ∀ id, id < js.joins.length → Matches js ks (.join id) (.join (renumber id))

theorem Chain.lt {id : Nat} (chain : js.Chain (.join id) above) : id < js.joins.length := by
  cases chain with
  | join present _ => exact (List.getElem?_eq_some_iff.1 present).1

theorem Follows.eq_renumbered (follows : Follows renumber js ks) (grown : ks.Grown s root)
    (same : Matches js ks place other) : other = place.renumbered renumber := by
  obtain ⟨above, above', chain, chain', trails⟩ := same
  cases place with
  | root =>
    cases chain
    exact grown.chain_injective chain' .root trails.symm
  | join id =>
    obtain ⟨onTheWay, onTheWay', known, known', trails'⟩ := follows id chain.lt
    cases chain.unique known
    exact grown.chain_injective chain' known' (trails.symm.trans trails')

theorem Follows.renumbered (follows : Follows renumber js ks) (grown : js.Grown s root)
    (grown' : ks.Grown s root)
    (covers : ∀ id, id < ks.joins.length → ∃ old, Matches js ks (.join old) (.join id)) :
    js.Renumbered renumber ks where
  bijective := by
    refine ⟨fun id inside => ?_, fun id inside second inside' same => ?_, fun id inside => ?_⟩
    · obtain ⟨_, _, _, chain, _⟩ := follows id inside
      exact chain.lt
    · obtain ⟨_, _, chain, known, trails⟩ := follows id inside
      obtain ⟨_, _, chain', known', trails'⟩ := follows second inside'
      rw [← same] at known'
      cases known.unique known'
      cases grown.chain_injective chain chain' (trails.trans trails'.symm)
      rfl
    · obtain ⟨old, same⟩ := covers id inside
      have number := follows.eq_renumbered grown' same
      obtain ⟨_, _, chain, _⟩ := same
      cases number
      exact ⟨old, chain.lt, rfl⟩
  joins id j present := by
    have same := follows id (List.getElem?_eq_some_iff.1 present).1
    have bound : renumber id < ks.joins.length := by
      obtain ⟨_, _, _, chain, _⟩ := same
      exact chain.lt
    have present' : ks.get? (renumber id) = some _ := List.getElem?_eq_getElem bound
    obtain ⟨parents, fields⟩ := grown.join_eq grown' present present' same
    rw [present', fields, follows.eq_renumbered grown' parents, Join.renumbered,
      grown.id_eq present]

theorem Locates.same (located : js.Locates s root segments p above)
    (located' : ks.Locates s root segments q above') (grown : js.Grown s root)
    (grown' : ks.Grown s root) :
    Matches js ks p.source q.source ∧ p.attributes = q.attributes := by
  -- Both chains spell the path up to its last crossing.
  have crossings := (grown.crossings_of_locates located).symm.trans
    (grown'.crossings_of_locates located')
  have trails : trail above = trail above' := by
    rw [← grown.getLast?_crossings_trail located.chain, crossings,
      grown'.getLast?_crossings_trail located'.chain]
  refine ⟨⟨_, _, located.chain, located'.chain, trails⟩, ?_⟩
  have spelled := located.spelled.trans located'.spelled.symm
  rwa [trails, List.append_cancel_left_eq] at spelled

theorem Locates.eq_renumbered (located : js.Locates s root segments p above)
    (located' : ks.Locates s root segments q above') (grown : js.Grown s root)
    (grown' : ks.Grown s root) (follows : Follows renumber js ks)
    (leads : s.Leads root segments p.valueType) (leads' : s.Leads root segments q.valueType) :
    q = p.renumbered renumber := by
  obtain ⟨sources, attributes⟩ := located.same located' grown grown'
  have source := follows.eq_renumbered grown' sources
  cases q
  rw [AttributePath.renumbered, AttributePath.mk.injEq]
  exact ⟨source, attributes.symm, leads'.unique leads⟩

end JoinSet

namespace Schema

open JoinSet (Grown Locates Matches Follows)

theorem resolveOver_again {s : Schema} {root : EntityType} {js : JoinSet} {path : String}
    {p : AttributePath} {above : List Join} (grown : js.Grown s root)
    (located : js.Locates s root (Text.segments path) p above)
    (leads : s.Leads root (Text.segments path) p.valueType) :
    s.resolveOver root js path = (.ok p, js) := by
  obtain ⟨q, after, ok, type⟩ := leads.resolveOver js
  obtain ⟨grown', grows, above', located', new⟩ := resolveOver_locates grown ok
  have later := located.mono grows
  obtain ⟨⟨_, _, chain, chain', trails⟩, attributes⟩ := later.same located' grown' grown'
  have source := grown'.chain_injective chain chain' trails
  obtain rfl : p = q := by
    cases p
    rw [AttributePath.mk.injEq]
    exact ⟨source, attributes, type.symm⟩
  -- The joins on the way were there before, so none was made.
  cases later.chain.unique located'.chain
  have old : ∀ j ∈ after.joins, j ∈ js.joins := fun j listed =>
    (new j listed).elim id (located.chain.subset j)
  rw [ok, JoinSet.eq_of_grows grown' grows old]

end Schema

namespace Resolutions

open JoinSet (Matches Follows)

variable {s : Schema} {root : EntityType} {r r' : Resolutions}

def Covers (r' r : Resolutions) : Prop :=
  ∀ entry ∈ r.resolved, ∃ other ∈ r'.resolved, other.1 = entry.1

theorem Accounted.exists_matches (accounted : r.Accounted s root)
    (accounted' : r'.Accounted s root) (covers : r'.Covers r) {id : Nat}
    (inside : id < r.joins.joins.length) :
    ∃ id', Matches r.joins r'.joins (.join id) (.join id') := by
  obtain ⟨above, chain⟩ := accounted.grown.exists_chain_join inside
  -- The segments down to the join are a crossing of some path, so also of the paths resolved there.
  have crossed : JoinSet.trail above ∈ r.crossed s root := by
    have present : r.joins.get? id = some _ := List.getElem?_eq_getElem inside
    refine accounted.mem_crossed_iff.2 ⟨_, List.getElem_mem inside, above, ?_, rfl⟩
    rw [accounted.grown.id_eq present]
    exact chain
  obtain ⟨entry, resolved, crossing⟩ := List.mem_flatMap.1 crossed
  obtain ⟨other, resolved', path⟩ := covers entry resolved
  have crossed' : JoinSet.trail above ∈ r'.crossed s root :=
    List.mem_flatMap.2 ⟨other, resolved', path ▸ crossing⟩
  obtain ⟨j, _, above', chain', trails⟩ := accounted'.mem_crossed_iff.1 crossed'
  exact ⟨j.id, above, above', chain, chain', trails.symm⟩

theorem Accounted.exists_renumbered (accounted : r.Accounted s root)
    (accounted' : r'.Accounted s root) (covers : r'.Covers r) (covered : r.Covers r') :
    ∃ renumber, Follows renumber r.joins r'.joins ∧ r.joins.Renumbered renumber r'.joins := by
  have matched : ∀ id, id < r.joins.joins.length →
      ∃ id', Matches r.joins r'.joins (.join id) (.join id') :=
    fun id inside => accounted.exists_matches accounted' covers inside
  choose! renumber follows using matched
  refine ⟨renumber, follows, JoinSet.Follows.renumbered follows accounted.grown accounted'.grown ?_⟩
  intro id inside
  obtain ⟨old, above, above', chain, chain', trails⟩ :=
    accounted'.exists_matches accounted covered inside
  exact ⟨old, above', above, chain', chain, trails.symm⟩

end Resolutions

end Criteria
