import Criteria.Proofs.Schema.Resolution
import Mathlib.Data.Finset.Card

set_option autoImplicit false

namespace Criteria

open JoinSet (trail)

namespace JoinSet

variable {s : Schema} {root : EntityType} {js : JoinSet} {place : PathSource} {above : List Join}

theorem Chain.subset (chain : js.Chain place above) : ∀ j ∈ above, j ∈ js.joins := by
  induction chain with
  | root => exact nofun
  | join present _ ih =>
    intro j listed
    rcases List.mem_append.1 listed with earlier | last
    · exact ih j earlier
    · cases List.mem_singleton.1 last
      exact mem_joins_iff.2 ⟨_, present⟩

theorem Grown.mem_crossings_trail (grown : js.Grown s root) (chain : js.Chain place above)
    {segments : List String} : segments ∈ s.crossings root (trail above) ↔
      ∃ j ∈ above, ∃ part, js.Chain (.join j.id) part ∧ trail part = segments := by
  induction chain with
  | root => simp [trail, Schema.crossings_nil]
  | @join id j above present chain ih =>
    have last : js.Chain (.join j.id) (above ++ [j]) := by
      rw [grown.id_eq present]
      exact .join present chain
    have ends : (∃ part, js.Chain (.join j.id) part ∧ trail part = segments) ↔
        segments = trail (above ++ [j]) := by
      constructor
      · intro given
        obtain ⟨part, chain', rfl⟩ := given
        rw [chain'.unique last]
      · intro same
        exact ⟨_, last, same.symm⟩
    simp only [grown.crossings_concat present chain, List.mem_append, List.mem_singleton, ih,
      or_and_right, exists_or, exists_eq_left, ends]

theorem Grown.crossings_of_locates (grown : js.Grown s root) {segments : List String}
    {p : AttributePath} (located : js.Locates s root segments p above) :
    s.crossings root segments = s.crossings root (trail above) := by
  obtain ⟨start, starts, within⟩ := located.within
  rw [← located.spelled, Schema.crossings_append ((grown.typeAt?_trail located.chain).trans starts),
    within.crossings, List.map_nil, List.append_nil]

end JoinSet

namespace Resolutions

variable {s : Schema} {root : EntityType} {r : Resolutions}

def crossed (r : Resolutions) (s : Schema) (root : EntityType) : List (List String) :=
  r.resolved.flatMap fun entry => s.crossings root (Text.segments entry.1)

theorem Accounted.mem_crossed_iff (accounted : r.Accounted s root) {segments : List String} :
    segments ∈ r.crossed s root ↔
      ∃ j ∈ r.joins.joins, ∃ above, r.joins.Chain (.join j.id) above ∧ trail above = segments := by
  have grown := accounted.grown
  simp only [crossed, List.mem_flatMap]
  constructor
  · intro given
    obtain ⟨entry, resolved, crossing⟩ := given
    obtain ⟨above, located⟩ := accounted.located entry resolved
    rw [grown.crossings_of_locates located, grown.mem_crossings_trail located.chain] at crossing
    obtain ⟨j, member, part⟩ := crossing
    exact ⟨j, located.chain.subset j member, part⟩
  · intro given
    obtain ⟨j, present, part⟩ := given
    obtain ⟨entry, resolved, above, chain, member⟩ := accounted.reached j present
    obtain ⟨above', located⟩ := accounted.located entry resolved
    cases chain.unique located.chain
    refine ⟨entry, resolved, ?_⟩
    rw [grown.crossings_of_locates located, grown.mem_crossings_trail chain]
    exact ⟨j, member, part⟩

theorem Accounted.length_joins (accounted : r.Accounted s root) :
    (r.crossed s root).dedup.length = r.joins.joins.length := by
  have grown := accounted.grown
  choose above chain using fun id (inside : id < r.joins.joins.length) =>
    grown.exists_chain_join inside
  rw [← List.card_toFinset]
  -- Numbers of joins and prefixes on a relation correspond by the segments down to the join.
  apply Finset.card_eq_of_bijective fun id inside => trail (above id inside)
  · intro segments crossed
    rw [List.mem_toFinset, accounted.mem_crossed_iff] at crossed
    obtain ⟨j, present, other, chain', rfl⟩ := crossed
    have inside : j.id < r.joins.joins.length :=
      (List.getElem?_eq_some_iff.1 (grown.get?_id present)).1
    exact ⟨j.id, inside, congrArg trail ((chain j.id inside).unique chain')⟩
  · intro id inside
    rw [List.mem_toFinset, accounted.mem_crossed_iff]
    have present : r.joins.get? id = some _ := List.getElem?_eq_getElem inside
    refine ⟨_, List.getElem_mem inside, above id inside, ?_, rfl⟩
    rw [grown.id_eq present]
    exact chain id inside
  · intro id other inside inside' same
    cases grown.chain_injective (chain id inside) (chain other inside') same
    rfl

theorem Accounted.source_eq_iff (accounted : r.Accounted s root) {a b : String × AttributePath}
    (first : a ∈ r.resolved) (second : b ∈ r.resolved) : a.2.source = b.2.source ↔
      (s.crossings root (Text.segments a.1)).getLast? =
        (s.crossings root (Text.segments b.1)).getLast? := by
  have grown := accounted.grown
  obtain ⟨above, located⟩ := accounted.located a first
  obtain ⟨above', located'⟩ := accounted.located b second
  rw [grown.crossings_of_locates located, grown.crossings_of_locates located']
  constructor
  · intro same
    have chain := located.chain
    rw [same] at chain
    rw [chain.unique located'.chain]
  · intro same
    apply grown.chain_injective located.chain located'.chain
    rw [← grown.getLast?_crossings_trail located.chain, same,
      grown.getLast?_crossings_trail located'.chain]

theorem Accounted.source_eq_root_iff (accounted : r.Accounted s root) {a : String × AttributePath}
    (resolved : a ∈ r.resolved) :
    a.2.source = .root ↔ s.crossings root (Text.segments a.1) = [] := by
  have grown := accounted.grown
  obtain ⟨above, located⟩ := accounted.located a resolved
  rw [grown.crossings_of_locates located]
  have chain := located.chain
  constructor
  · intro atRoot
    rw [atRoot] at chain
    cases chain
    exact Schema.crossings_nil
  · intro none
    cases source : a.2.source with
    | root => rfl
    | join id =>
      rw [source] at chain
      exact absurd none (grown.crossings_trail_ne_nil chain)

end Resolutions

/-- After any paths have been resolved there are as many joins as distinct prefixes on a relation
among those that did resolve, no two with one parent and relation; a lookup finds exactly the join
that there is; and two paths have one source exactly if their longest prefixes on a relation are
the same, the root if they have none. -/
theorem Schema.joins_resolveAll (s : Schema) (root : EntityType) (paths : List String) :
    let r := s.resolveAll root paths
    let crossings := fun path => s.crossings root (Text.segments path)
    r.joins.joins.length = (r.resolved.flatMap fun entry => crossings entry.1).dedup.length ∧
    (r.joins.joins.map fun j => (j.parent, j.relation)).Nodup ∧
    (∀ parent relation id, r.joins.find? parent relation = some id ↔
      ∃ j ∈ r.joins.joins, j.id = id ∧ j.parent = parent ∧ j.relation = relation) ∧
    (∀ a ∈ r.resolved, ∀ b ∈ r.resolved, a.2.source = b.2.source ↔
      (crossings a.1).getLast? = (crossings b.1).getLast?) ∧
    (∀ a ∈ r.resolved, a.2.source = .root ↔ crossings a.1 = []) := by
  have accounted := Schema.accounted_resolveAll s root paths
  have grown := accounted.grown
  refine ⟨accounted.length_joins.symm, grown.nodup, fun parent relation id => ?_,
    fun a first b second => accounted.source_eq_iff first second,
    fun a resolved => accounted.source_eq_root_iff resolved⟩
  constructor
  · exact JoinSet.find?_eq_some
  · intro given
    obtain ⟨j, present, rfl, keys⟩ := given
    exact grown.find?_eq_some_iff.2 ⟨j, grown.get?_id present, keys⟩

end Criteria
