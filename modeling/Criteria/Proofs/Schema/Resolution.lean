import Criteria.Proofs.Schema.Joins
import Criteria.Proofs.Text.Dotted

set_option autoImplicit false

namespace Criteria

namespace JoinSet

structure Locates (js : JoinSet) (s : Schema) (root : EntityType) (segments : List String)
    (p : AttributePath) (above : List Join) : Prop where
  chain : js.Chain p.source above
  within : ∃ start, js.start? s root p.source = some start ∧ s.Within start p.attributes p.valueType
  spelled : trail above ++ p.attributes = segments

variable {s : Schema} {root : EntityType} {js later : JoinSet} {segments : List String}
  {p : AttributePath} {above : List Join}

theorem Locates.mono (located : js.Locates s root segments p above)
    (grows : js.joins <+: later.joins) : later.Locates s root segments p above where
  chain := located.chain.mono grows
  within :=
    have ⟨start, starts, within⟩ := located.within
    ⟨start, start?_mono grows starts, within⟩
  spelled := located.spelled

theorem Locates.dotted {path : String} (located : js.Locates s root (Text.segments path) p above) :
    Text.dotted (above.map Join.relation ++ p.attributes) = path := by
  have plain : ∀ name ∈ p.attributes, '.' ∉ name.toList := by
    intro name listed
    apply Text.not_mem_of_mem_segments
    rw [← located.spelled]
    exact List.mem_append_right _ listed
  have attributes : p.attributes.flatMap Text.segments = p.attributes := by
    rw [List.flatMap_congr fun name listed => Text.segments_of_not_mem (plain name listed)]
    exact List.flatMap_singleton' _
  have segments : (above.map Join.relation ++ p.attributes).flatMap Text.segments =
      Text.segments path := by
    rw [List.flatMap_append, List.flatMap_map, attributes]
    exact located.spelled
  rw [← Text.dotted_flatMap_segments, segments, Text.dotted_segments]

end JoinSet

namespace Schema

open JoinSet (trail Grown Locates)

variable {s : Schema} {root : EntityType}

-- The induction follows the segments that are left, with the joins and steps of those before them.
theorem Leads.locates {start current : EntityType} {rest steps : List String}
    {key : Option TypeKey} {source : PathSource} {joins after : JoinSet} {above : List Join}
    {p : AttributePath} (leads : s.Leads current rest key) (grown : joins.Grown s root)
    (chain : joins.Chain source above) (starts : joins.start? s root source = some start)
    (inline : s.Inline start steps current) (plain : ∀ name ∈ steps ++ rest, '.' ∉ name.toList)
    (ok : s.walk rest current source steps joins = (.ok p, after)) :
    after.Grown s root ∧ joins.joins <+: after.joins ∧ ∃ crossed,
      after.Locates s root (trail above ++ steps ++ rest) p (above ++ crossed) ∧
      ∀ j ∈ after.joins, j ∈ joins.joins ∨ j ∈ crossed := by
  induction leads generalizing source steps joins above start with
  | here =>
    cases ok
    have located : Locates _ s root (trail above ++ steps ++ []) ⟨source, steps, none⟩ above :=
      ⟨chain, ⟨start, starts, .structured inline⟩, by simp⟩
    exact ⟨grown, List.prefix_refl _, [], by simpa using located, fun j listed => .inl listed⟩
  | @scalar t segment name key found =>
    rw [walk_scalar found] at ok
    cases ok
    have located : Locates _ s root (trail above ++ steps ++ [segment])
        ⟨source, steps ++ [segment], some key⟩ above :=
      ⟨chain, ⟨start, starts, .scalar inline found⟩, by simp⟩
    exact ⟨grown, List.prefix_refl _, [], by simpa using located, fun j listed => .inl listed⟩
  | @further t next segment target a rest key found leads declared _ ih =>
    obtain ⟨name, kind⟩ := a
    cases kind with
    | scalar => cases leads
    | embedded =>
      cases leads
      rw [walk_embedded found declared] at ok
      have further := inline.concat found declared
      have result := ih grown chain starts further (by simpa using plain) ok
      simpa using result
    | relation =>
      cases leads
      rw [walk_relation found declared] at ok
      have block : Text.segments (Text.dotted (steps ++ [segment])) = steps ++ [segment] := by
        refine Text.segments_dotted (fun name listed => plain name ?_) (List.concat_ne_nil _ _)
        simp only [List.mem_append, List.mem_cons, List.not_mem_nil, or_false] at listed ⊢
        tauto
      have crosses := crossing?_concat inline found declared
      rw [← block] at crosses
      obtain ⟨grown', grows, j, present, parent, relation, leads, new⟩ :=
        grown.require starts crosses
      have chain' : JoinSet.Chain _ _ (above ++ [j]) :=
        .join present (by rw [parent]; exact chain.mono grows)
      have plain' : ∀ name ∈ [] ++ rest, '.' ∉ name.toList := by
        intro name listed
        exact plain name (List.mem_append_right _ (List.mem_cons_of_mem _ listed))
      obtain ⟨grown'', grows', crossed, located, newer⟩ := ih grown' chain' leads .here plain' ok
      refine ⟨grown'', grows.trans grows', j :: crossed, ?_, fun k listed => ?_⟩
      · simpa [JoinSet.trail_concat, relation, block] using located
      · rcases newer k listed with earlier | onTheWay
        · rcases new k earlier with old | rfl
          · exact .inl old
          · exact .inr List.mem_cons_self
        · exact .inr (List.mem_cons_of_mem _ onTheWay)

theorem resolveOver_locates {joins after : JoinSet} {path : String} {p : AttributePath}
    (grown : joins.Grown s root) (ok : s.resolveOver root joins path = (.ok p, after)) :
    after.Grown s root ∧ joins.joins <+: after.joins ∧ ∃ above,
      after.Locates s root (Text.segments path) p above ∧
      ∀ j ∈ after.joins, j ∈ joins.joins ∨ j ∈ above := by
  have leads : s.Leads root (Text.segments path) p.valueType :=
    resolveOver_eq_ok_iff.1 ⟨p, after, ok, rfl⟩
  have plain : ∀ name ∈ [] ++ Text.segments path, '.' ∉ name.toList :=
    fun name listed => Text.not_mem_of_mem_segments listed
  obtain ⟨q, later, arrived, -⟩ := leads.walk .root [] joins
  have same : s.resolveOver root joins path = (.ok q, later) := by simp [resolveOver, arrived]
  cases ok.symm.trans same
  exact leads.locates grown .root rfl .here plain arrived

end Schema

structure Resolutions where
  joins : JoinSet := {}
  resolved : List (String × AttributePath) := []

/-- Every resolved path is located by the joins, and every join is on the way to one. -/
structure Resolutions.Accounted (r : Resolutions) (s : Schema) (root : EntityType) : Prop where
  grown : r.joins.Grown s root
  located : ∀ entry ∈ r.resolved, ∃ above,
    r.joins.Locates s root (Text.segments entry.1) entry.2 above
  reached : ∀ j ∈ r.joins.joins, ∃ entry ∈ r.resolved, ∃ above,
    r.joins.Chain entry.2.source above ∧ j ∈ above

namespace Schema

def resolveNext (s : Schema) (root : EntityType) (r : Resolutions) (path : String) : Resolutions :=
  match s.resolveOver root r.joins path with
  | (.ok p, joins) => ⟨joins, r.resolved ++ [(path, p)]⟩
  | (.error _, joins) => ⟨joins, r.resolved⟩

def resolveAll (s : Schema) (root : EntityType) (paths : List String) : Resolutions :=
  paths.foldl (s.resolveNext root) {}

variable {s : Schema} {root : EntityType}

theorem accounted_resolveNext {r : Resolutions} (accounted : r.Accounted s root) (path : String) :
    (s.resolveNext root r path).Accounted s root := by
  unfold resolveNext
  split
  · next p joins ok =>
    obtain ⟨grown, grows, above, located, new⟩ := resolveOver_locates accounted.grown ok
    refine ⟨grown, fun entry listed => ?_, fun j listed => ?_⟩
    · rcases List.mem_append.1 listed with earlier | last
      · obtain ⟨above, located⟩ := accounted.located entry earlier
        exact ⟨above, located.mono grows⟩
      · cases List.mem_singleton.1 last
        exact ⟨above, located⟩
    · rcases new j listed with earlier | onTheWay
      · obtain ⟨entry, resolved, above, chain, member⟩ := accounted.reached j earlier
        exact ⟨entry, List.mem_append_left _ resolved, above, chain.mono grows, member⟩
      · exact ⟨(path, p), List.mem_append_right _ List.mem_cons_self, above, located.chain, onTheWay⟩
  · next e joins failed =>
    obtain ⟨-, rfl⟩ := resolveOver_eq_error_iff.1 failed
    exact accounted

theorem accounted_resolveAll (s : Schema) (root : EntityType) (paths : List String) :
    (s.resolveAll root paths).Accounted s root := by
  have start : Resolutions.Accounted {} s root := ⟨.none, nofun, nofun⟩
  unfold resolveAll
  generalize ({} : Resolutions) = r at start
  induction paths generalizing r with
  | nil => exact start
  | cons path paths ih => exact ih _ (accounted_resolveNext start path)

/-- After any paths, resolved or not, a path resolves exactly if the schema leads along it, and then
to the type that it leads to; the joins down to its source, of which there is one chain, and its
attributes spell the path. Otherwise the error tells the first segment that leads nowhere, and the
joins are as before. -/
theorem resolve_after (s : Schema) (root : EntityType) (earlier : List String) (path : String) :
    let joins := (s.resolveAll root earlier).joins
    (∀ key, (∃ p after, s.resolveOver root joins path = (.ok p, after) ∧ p.valueType = key) ↔
      s.Leads root (Text.segments path) key) ∧
    (∀ p after, s.resolveOver root joins path = (.ok p, after) →
      ∃ above, after.Chain p.source above ∧ (∀ other, after.Chain p.source other → other = above) ∧
        Text.dotted (above.map Join.relation ++ p.attributes) = path) ∧
    (∀ e after, s.resolveOver root joins path = (.error e, after) ↔
      s.Breaks root (Text.segments path) e ∧ after = joins) := by
  refine ⟨fun key => resolveOver_eq_ok_iff, fun p after ok => ?_,
    fun e after => resolveOver_eq_error_iff⟩
  have grown := (accounted_resolveAll s root earlier).grown
  obtain ⟨_, _, above, located, _⟩ := resolveOver_locates grown ok
  exact ⟨above, located.chain, fun other chain => chain.unique located.chain, located.dotted⟩

end Schema

end Criteria
