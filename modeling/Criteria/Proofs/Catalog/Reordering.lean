import Criteria.Proofs.Catalog.Building
import Criteria.Proofs.Outcome
import Criteria.Proofs.Schema.Renumbering

set_option autoImplicit false

namespace Criteria

def FieldSpec.field (spec : FieldSpec) (path : AttributePath) : Field :=
  ⟨spec.name, spec.attributePath, path, spec.orderable, spec.parser⟩

def Field.renumbered (renumber : Nat → Nat) (field : Field) : Field :=
  { field with path := field.path.renumbered renumber }

theorem Schema.exists_leads_of_resolve {s : Schema} {root : EntityType} {js : JoinSet}
    {path : String} {found : AttributePath × JoinSet} (resolved : s.resolve root js path = .ok found) :
    ∃ key, s.Leads root (Text.segments path) key := by
  rcases s.leads_or_breaks (Text.segments path) root with leads | ⟨e, breaks⟩
  · exact leads
  · simp [resolve, breaks.resolveOver] at resolved

namespace Building

variable {b b' : Building} {s : Schema} {root : EntityType} {name : String} {field : Field}
  {specs : List FieldSpec}

def Includes (b' b : Building) : Prop :=
  ∀ name field, b.catalog.field? name = some field →
    ∃ path, b'.catalog.field? name = some { field with path }

structure Answers (b : Building) (s : Schema) (root : EntityType) (specs : List FieldSpec) : Prop
    where
  sound : b.Sound s root
  made : List.Forall₂ (fun spec field => ∃ path, field = spec.field path) specs b.made

theorem Sound.covers (sound : b.Sound s root) (sound' : b'.Sound s root)
    (includes : b'.Includes b) : b'.resolutions.Covers b.resolutions := by
  intro entry resolved
  obtain ⟨field, listed, rfl⟩ := List.mem_map.1 resolved
  obtain ⟨path, present⟩ := includes field.name field (sound.field?_of_mem listed)
  exact ⟨_, List.mem_map_of_mem (sound'.mem_of_field? present), rfl⟩

theorem Sound.exists_renumbered (sound : b.Sound s root) (sound' : b'.Sound s root)
    (includes : b'.Includes b) (included : b.Includes b') :
    ∃ renumber, b.catalog.joins.Renumbered renumber b'.catalog.joins ∧
      ∀ name, b'.catalog.field? name = (b.catalog.field? name).map (·.renumbered renumber) := by
  obtain ⟨renumber, follows, renumbered⟩ := sound.accounted.exists_renumbered sound'.accounted
    (sound.covers sound' includes) (sound'.covers sound included)
  refine ⟨renumber, renumbered, fun name => ?_⟩
  cases present : b.catalog.field? name with
  | none =>
    cases present' : b'.catalog.field? name with
    | none => rfl
    | some field =>
      obtain ⟨path, known⟩ := included name field present'
      cases present.symm.trans known
  | some field =>
    obtain ⟨path, present'⟩ := includes name field present
    obtain ⟨above, located⟩ := sound.locates present
    obtain ⟨above', located'⟩ := sound'.locates present'
    have leads := sound.leads field (sound.mem_of_field? present)
    have leads' := sound'.leads _ (sound'.mem_of_field? present')
    have same : path = field.path.renumbered renumber := located.eq_renumbered located'
      sound.accounted.grown sound'.accounted.grown follows leads leads'
    rw [present', same]
    rfl

theorem Sound.resolve_again (sound : b.Sound s root)
    (present : b.catalog.field? name = some field) :
    s.resolve root b.catalog.joins field.attributePath = .ok (field.path, b.catalog.joins) := by
  obtain ⟨above, located⟩ := sound.locates present
  have leads := sound.leads field (sound.mem_of_field? present)
  have again : s.resolveOver root b.catalog.joins field.attributePath =
      (.ok field.path, b.catalog.joins) :=
    Schema.resolveOver_again sound.accounted.grown located leads
  simp [Schema.resolve, again]

theorem Sound.exists_addAll (sound : b.Sound s root)
    (free : ∀ spec ∈ specs, b.catalog.field? spec.name = none)
    (names : (specs.map FieldSpec.name).Nodup)
    (leads : ∀ spec ∈ specs, ∃ key, s.Leads root (Text.segments spec.attributePath) key) :
    ∃ after made, b.addAll specs = (after, none) ∧ after.Sound s root ∧
      after.made = b.made ++ made ∧
      List.Forall₂ (fun spec field => ∃ path, field = spec.field path) specs made := by
  induction specs generalizing b with
  | nil => exact ⟨b, [], rfl, sound, (List.append_nil _).symm, .nil⟩
  | cons spec specs ih =>
    obtain ⟨free, frees⟩ := List.forall_mem_cons.1 free
    obtain ⟨unused, names⟩ := List.nodup_cons.1 names
    obtain ⟨⟨key, lead⟩, leads⟩ := List.forall_mem_cons.1 leads
    have first : ∃ path next, path.valueType = key ∧
        b.register spec.name spec.attributePath spec.orderable spec.parser = (next, none) ∧
        next.made = b.made ++ [spec.field path] := sound.register_made_iff.2 ⟨free, lead⟩
    obtain ⟨path, next, -, registered, listed⟩ := first
    have sound' := sound.register_made registered
    have stillFree : ∀ later ∈ specs, next.catalog.field? later.name = none := by
      intro later member
      have distinct : spec.name ≠ later.name := fun same =>
        unused (same ▸ List.mem_map_of_mem member)
      have before := frees later member
      rw [sound.fields] at before
      rw [sound'.fields, listed, List.find?_append, before]
      simp [FieldSpec.field, distinct]
    obtain ⟨after, made, added, sound'', listed', answers⟩ := ih sound' stillFree names leads
    refine ⟨after, spec.field path :: made, ?_, sound'', ?_, .cons ⟨path, rfl⟩ answers⟩
    · rw [Building.addAll, add, registered]
      exact added
    · rw [listed', listed, List.append_assoc]
      rfl

namespace Answers

theorem exists_field (answers : b.Answers s root specs) {spec : FieldSpec} (asked : spec ∈ specs) :
    ∃ path, b.catalog.field? spec.name = some (spec.field path) := by
  obtain ⟨field, listed, path, rfl⟩ := exists_of_mem_left answers.made asked
  exact ⟨path, answers.sound.field?_of_mem listed⟩

theorem exists_spec (answers : b.Answers s root specs)
    (present : b.catalog.field? name = some field) :
    ∃ spec ∈ specs, name = spec.name ∧ ∃ path, field = spec.field path := by
  have found := present
  rw [answers.sound.fields] at found
  obtain ⟨spec, asked, path, rfl⟩ :=
    exists_of_mem_right answers.made (List.mem_of_find?_eq_some found)
  have named : spec.name = name := by simpa [FieldSpec.field] using List.find?_some found
  exact ⟨spec, asked, named.symm, path, rfl⟩

theorem includes {reordered : List FieldSpec} (answers : b.Answers s root specs)
    (answers' : b'.Answers s root reordered) (asked : specs ⊆ reordered) : b'.Includes b := by
  intro name field present
  obtain ⟨spec, member, rfl, path, rfl⟩ := answers.exists_spec present
  exact answers'.exists_field (asked member)

end Answers

end Building

namespace Catalog

theorem exists_answers {s : Schema} {root : EntityType} {specs : List FieldSpec}
    (names : (specs.map FieldSpec.name).Nodup)
    (resolve : ∀ spec ∈ specs, ∃ found, s.resolve root {} spec.attributePath = .ok found) :
    ∃ b : Building, ({ schema := s, root } : Catalog).addAll specs = (b.catalog, none) ∧
      b.Answers s root specs := by
  have leads : ∀ spec ∈ specs, ∃ key, s.Leads root (Text.segments spec.attributePath) key := by
    intro spec asked
    obtain ⟨found, resolved⟩ := resolve spec asked
    exact Schema.exists_leads_of_resolve resolved
  obtain ⟨b, made, added, sound, listed, answers⟩ :=
    (Building.Sound.start s root).exists_addAll (fun _ _ => rfl) names leads
  refine ⟨b, ?_, sound, ?_⟩
  · rw [← Building.addAll_eq ⟨_, []⟩, added]
  · rw [listed]
    exact answers

/-- Fields of distinct names whose paths resolve can be added in any order. The catalogs have the same
fields but for the numbers of their joins, and the same joins under other numbers. The path of a
field resolves over the joins of the catalog to what it was, and makes no join. -/
theorem addAll_perm (s : Schema) (root : EntityType) {specs reordered : List FieldSpec}
    (same : specs.Perm reordered) (names : (specs.map FieldSpec.name).Nodup)
    (resolve : ∀ spec ∈ specs, ∃ found, s.resolve root {} spec.attributePath = .ok found) :
    ∃ c d : Catalog, ({ schema := s, root } : Catalog).addAll specs = (c, none) ∧
      ({ schema := s, root } : Catalog).addAll reordered = (d, none) ∧
      c.size = specs.length ∧
      (∀ spec ∈ specs, ∃ path, c.field? spec.name = some (spec.field path)) ∧
      (∃ renumber, c.joins.Renumbered renumber d.joins ∧
        ∀ name, d.field? name = (c.field? name).map (·.renumbered renumber)) ∧
      ∀ name field, c.field? name = some field →
        s.resolve root c.joins field.attributePath = .ok (field.path, c.joins) := by
  have names' : (reordered.map FieldSpec.name).Nodup := (same.map _).nodup_iff.1 names
  have resolve' : ∀ spec ∈ reordered, ∃ found, s.resolve root {} spec.attributePath = .ok found :=
    fun spec asked => resolve spec (same.mem_iff.2 asked)
  obtain ⟨b, added, answers⟩ := exists_answers names resolve
  obtain ⟨b', added', answers'⟩ := exists_answers names' resolve'
  have size : b.catalog.size = specs.length := by
    rw [answers.sound.size, answers.made.length_eq]
  refine ⟨b.catalog, b'.catalog, added, added', size, fun spec => answers.exists_field, ?_,
    fun name field => answers.sound.resolve_again⟩
  exact answers.sound.exists_renumbered answers'.sound (answers.includes answers' same.subset)
    (answers'.includes answers same.symm.subset)

def lecture : EntityType :=
  ⟨"Lecture", [⟨"teacher", .relation "Teacher" .one⟩, ⟨"room", .relation "Room" .one⟩]⟩

def campus : Schema :=
  .ofList
    [lecture, ⟨"Teacher", [⟨"name", .scalar .text⟩, ⟨"school", .relation "School" .one⟩]⟩,
      ⟨"School", [⟨"name", .scalar .text⟩]⟩, ⟨"Room", [⟨"floor", .scalar (.int .int)⟩]⟩]

def lectureFields : List FieldSpec :=
  [{ attributePath := "teacher.name" }, { attributePath := "room.floor", orderable := true },
    { attributePath := "teacher.school.name", alternative := some "school" }]

-- In the reverse order the school is joined before the room.
theorem lectureFields_reversed :
    lectureFields.Perm lectureFields.reverse ∧ (lectureFields.map FieldSpec.name).Nodup ∧
      (∀ spec ∈ lectureFields, ∃ found, campus.resolve lecture {} spec.attributePath = .ok found) ∧
      ∃ c d : Catalog,
        ({ schema := campus, root := lecture } : Catalog).addAll lectureFields = (c, none) ∧
        ({ schema := campus, root := lecture } : Catalog).addAll lectureFields.reverse = (d, none) ∧
        ∃ renumber, c.joins.Renumbered renumber d.joins ∧
          ∀ name, d.field? name = (c.field? name).map (·.renumbered renumber) := by
  have perm : lectureFields.Perm lectureFields.reverse := lectureFields.reverse_perm.symm
  have names : (lectureFields.map FieldSpec.name).Nodup := by decide
  have resolve : ∀ spec ∈ lectureFields,
      ∃ found, campus.resolve lecture {} spec.attributePath = .ok found := by
    simp only [lectureFields, List.forall_mem_cons]
    exact ⟨⟨_, rfl⟩, ⟨_, rfl⟩, ⟨_, rfl⟩, nofun⟩
  obtain ⟨c, d, added, added', -, -, renumbered, -⟩ :=
    addAll_perm campus lecture perm names resolve
  exact ⟨perm, names, resolve, c, d, added, added', renumbered⟩

end Catalog

end Criteria
