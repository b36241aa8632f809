import Criteria.Catalog.Basic
import Criteria.Proofs.Schema.Resolution
import Std.Data.TreeMap.Lemmas

set_option autoImplicit false

namespace Criteria

inductive CatalogStep where
  | register (name attributePath : String) (orderable : Bool) (parser : Option ValueParser)
  | add (spec : FieldSpec)
  | addAll (specs : List FieldSpec)

namespace Catalog

def perform (c : Catalog) : CatalogStep → Catalog
  | .register name attributePath orderable parser =>
    match c.register name attributePath orderable parser with
    | .error _ => c
    | .ok (_, c) => c
  | .add spec =>
    match c.add spec with
    | .error _ => c
    | .ok (_, c) => c
  | .addAll specs => (c.addAll specs).1

end Catalog

structure Building where
  catalog : Catalog
  made : List Field := []

namespace Building

/-- Registers a field in place. Also when its path does not resolve, the joins are those that the
attempt has left. -/
def register (b : Building) (name attributePath : String) (orderable : Bool)
    (parser : Option ValueParser) : Building × Option FilterError :=
  match b.catalog.field? name with
  | some _ => (b, some (.duplicateField name))
  | none =>
    match b.catalog.schema.resolveOver b.catalog.root b.catalog.joins attributePath with
    | (.error e, joins) => ({ b with catalog := { b.catalog with joins } }, some e)
    | (.ok path, joins) =>
      let field : Field := ⟨name, attributePath, path, orderable, parser⟩
      let fields := b.catalog.fields.insert name field
      (⟨{ b.catalog with fields, joins }, b.made ++ [field]⟩, none)

def add (b : Building) (spec : FieldSpec) : Building × Option FilterError :=
  b.register spec.name spec.attributePath spec.orderable spec.parser

def addAll (b : Building) : List FieldSpec → Building × Option FilterError
  | [] => (b, none)
  | spec :: specs =>
    match b.add spec with
    | (b, some e) => (b, some e)
    | (b, none) => b.addAll specs

def apply (b : Building) : CatalogStep → Building × Option FilterError
  | .register name attributePath orderable parser =>
    b.register name attributePath orderable parser
  | .add spec => b.add spec
  | .addAll specs => b.addAll specs

def run (b : Building) (steps : List CatalogStep) : Building :=
  steps.foldl (fun b step => (b.apply step).1) b

def record (b : Building) : Except FilterError (Field × Catalog) → Building × Option FilterError
  | .error e => (b, some e)
  | .ok (field, catalog) => (⟨catalog, b.made ++ [field]⟩, none)

def resolutions (b : Building) : Resolutions :=
  ⟨b.catalog.joins, b.made.map fun field => (field.attributePath, field.path)⟩

/-- The fields of the catalog are those that were made, no two of one name. The schema leads along
their paths, and the joins are on the way to them. -/
structure Sound (b : Building) (s : Schema) (root : EntityType) : Prop where
  schema_eq : b.catalog.schema = s
  root_eq : b.catalog.root = root
  accounted : b.resolutions.Accounted s root
  leads : ∀ field ∈ b.made, s.Leads root (Text.segments field.attributePath) field.path.valueType
  names : (b.made.map (·.name)).Nodup
  fields : ∀ name, b.catalog.field? name = b.made.find? (·.name == name)
  size : b.catalog.size = b.made.length

variable {b after : Building} {s : Schema} {root : EntityType} {name attributePath : String}
  {orderable : Bool} {parser : Option ValueParser} {e : FilterError} {field : Field}

theorem register_eq (b : Building) (name attributePath : String) (orderable : Bool)
    (parser : Option ValueParser) :
    b.register name attributePath orderable parser =
      b.record (b.catalog.register name attributePath orderable parser) := by
  unfold register Catalog.register Schema.resolve
  cases b.catalog.field? name with
  | some _ => rfl
  | none =>
    cases resolved : b.catalog.schema.resolveOver b.catalog.root b.catalog.joins attributePath with
    | mk outcome joins =>
      cases outcome with
      | ok path => rfl
      | error e =>
        obtain ⟨-, rfl⟩ := Schema.resolveOver_eq_error_iff.1 resolved
        rfl

theorem addAll_eq (b : Building) (specs : List FieldSpec) :
    ((b.addAll specs).1.catalog, (b.addAll specs).2) = b.catalog.addAll specs := by
  induction specs generalizing b with
  | nil => rfl
  | cons spec specs ih =>
    rw [addAll, Catalog.addAll, add, Catalog.add, register_eq]
    cases b.catalog.register spec.name spec.attributePath spec.orderable spec.parser with
    | error e => rfl
    | ok registered => exact ih _

theorem catalog_apply (b : Building) (step : CatalogStep) :
    (b.apply step).1.catalog = b.catalog.perform step := by
  cases step with
  | register name attributePath orderable parser =>
    rw [apply, register_eq, Catalog.perform]
    cases b.catalog.register name attributePath orderable parser <;> rfl
  | add spec =>
    rw [apply, add, register_eq, Catalog.perform, Catalog.add]
    cases b.catalog.register spec.name spec.attributePath spec.orderable spec.parser <;> rfl
  | addAll specs => exact congrArg Prod.fst (b.addAll_eq specs)

theorem catalog_run (b : Building) (steps : List CatalogStep) :
    (b.run steps).catalog = steps.foldl Catalog.perform b.catalog := by
  induction steps generalizing b with
  | nil => rfl
  | cons step steps ih =>
    rw [List.foldl_cons, ← catalog_apply]
    exact ih (b.apply step).1

theorem register_failed (failed : b.register name attributePath orderable parser = (after, some e)) :
    after = b := by
  rw [register_eq] at failed
  cases outcome : b.catalog.register name attributePath orderable parser with
  | error e =>
    rw [outcome] at failed
    cases failed
    rfl
  | ok registered =>
    rw [outcome] at failed
    cases failed

theorem register_made (made : b.register name attributePath orderable parser = (after, none)) :
    ∃ path joins, b.catalog.field? name = none ∧
      b.catalog.schema.resolveOver b.catalog.root b.catalog.joins attributePath =
        (.ok path, joins) ∧
      let field : Field := ⟨name, attributePath, path, orderable, parser⟩
      let fields := b.catalog.fields.insert name field
      after = ⟨{ b.catalog with fields, joins }, b.made ++ [field]⟩ := by
  unfold register at made
  split at made
  · cases made
  · next free =>
    split at made
    · cases made
    · next path joins resolved =>
      cases made
      exact ⟨path, joins, free, resolved, rfl⟩

theorem register_taken (taken : (b.catalog.field? name).isSome) :
    b.register name attributePath orderable parser = (b, some (.duplicateField name)) := by
  obtain ⟨field, present⟩ := Option.isSome_iff_exists.1 taken
  simp [register, present]

theorem addAll_failed {specs : List FieldSpec} (failed : b.addAll specs = (after, some e)) :
    ∃ before spec rest, specs = before ++ spec :: rest ∧ b.addAll before = (after, none) ∧
      after.add spec = (after, some e) := by
  induction specs generalizing b with
  | nil => cases failed
  | cons spec specs ih =>
    rw [addAll] at failed
    split at failed
    · next stopped refused =>
      cases failed
      cases register_failed refused
      exact ⟨[], spec, specs, rfl, rfl, refused⟩
    · next next added =>
      obtain ⟨before, last, rest, rfl, passed, refused⟩ := ih failed
      refine ⟨spec :: before, last, rest, rfl, ?_, refused⟩
      rw [addAll, added]
      exact passed

namespace Sound

theorem field?_of_mem (sound : b.Sound s root) (listed : field ∈ b.made) :
    b.catalog.field? field.name = some field := by
  rw [sound.fields]
  cases found : b.made.find? (·.name == field.name) with
  | none => exact absurd (beq_self_eq_true field.name) (List.find?_eq_none.1 found field listed)
  | some other =>
    have same : other.name = field.name := by simpa using List.find?_some found
    rw [List.inj_on_of_nodup_map sound.names (List.mem_of_find?_eq_some found) listed same]

theorem mem_of_field? (sound : b.Sound s root) (present : b.catalog.field? name = some field) :
    field ∈ b.made := by
  rw [sound.fields] at present
  exact List.mem_of_find?_eq_some present

theorem locates (sound : b.Sound s root) (present : b.catalog.field? name = some field) :
    ∃ above, b.catalog.joins.Locates s root (Text.segments field.attributePath) field.path above :=
  sound.accounted.located (field.attributePath, field.path)
    (List.mem_map_of_mem (sound.mem_of_field? present))

theorem reached (sound : b.Sound s root) {j : Join} (present : j ∈ b.catalog.joins.joins) :
    ∃ name field above, b.catalog.field? name = some field ∧
      b.catalog.joins.Chain field.path.source above ∧ j ∈ above := by
  obtain ⟨entry, resolved, above, chain, member⟩ := sound.accounted.reached j present
  obtain ⟨field, listed, rfl⟩ := List.mem_map.1 resolved
  exact ⟨field.name, field, above, sound.field?_of_mem listed, chain, member⟩

theorem register_made_iff (sound : b.Sound s root) {key : Option TypeKey} :
    (∃ path after, path.valueType = key ∧
      b.register name attributePath orderable parser = (after, none) ∧
      after.made = b.made ++ [⟨name, attributePath, path, orderable, parser⟩]) ↔
      b.catalog.field? name = none ∧ s.Leads root (Text.segments attributePath) key := by
  rw [← sound.schema_eq, ← sound.root_eq]
  constructor
  · intro given
    obtain ⟨path, after, rfl, made, listed⟩ := given
    obtain ⟨path', joins, free, resolved, rfl⟩ := Building.register_made made
    cases List.append_cancel_left listed
    exact ⟨free, Schema.resolveOver_eq_ok_iff.1 ⟨path, joins, resolved, rfl⟩⟩
  · intro given
    obtain ⟨free, leads⟩ := given
    obtain ⟨path, joins, resolved, type⟩ := leads.resolveOver b.catalog.joins
    have made : (b.register name attributePath orderable parser).2 = none := by
      simp only [Building.register, free, resolved]
    refine ⟨path, _, type, Prod.ext rfl made, ?_⟩
    simp only [Building.register, free, resolved]

theorem register_made (sound : b.Sound s root)
    (made : b.register name attributePath orderable parser = (after, none)) :
    after.Sound s root := by
  obtain ⟨path, joins, free, resolved, rfl⟩ := Building.register_made made
  have accounted := Schema.accounted_resolveNext sound.accounted attributePath
  rw [sound.schema_eq, sound.root_eq] at resolved
  simp only [Schema.resolveNext, resolutions, resolved] at accounted
  have unlisted : ∀ field ∈ b.made, ¬ (field.name == name) = true := by
    rw [sound.fields] at free
    exact List.find?_eq_none.1 free
  constructor
  case schema_eq => exact sound.schema_eq
  case root_eq => exact sound.root_eq
  case accounted => simpa [resolutions] using accounted
  case leads =>
    intro field listed
    rcases List.mem_append.1 listed with earlier | last
    · exact sound.leads field earlier
    · cases List.mem_singleton.1 last
      exact Schema.resolveOver_eq_ok_iff.1 ⟨path, joins, resolved, rfl⟩
  case names =>
    rw [List.map_append, List.map_singleton, ← List.concat_eq_append]
    refine sound.names.concat fun taken => ?_
    obtain ⟨field, listed, same⟩ := List.mem_map.1 taken
    exact unlisted field listed (beq_iff_eq.2 same)
  case fields =>
    intro other
    rw [Catalog.field?, Std.TreeMap.getElem?_insert, List.find?_append, ← sound.fields]
    by_cases same : name = other
    · subst same
      simp [free]
    · simp [same, Catalog.field?]
  case size =>
    have absent : b.catalog.fields.contains name = false := by
      rw [Std.TreeMap.contains_eq_isSome_getElem?, ← Catalog.field?, free]
      rfl
    rw [Catalog.size, Std.TreeMap.size_insert, absent, List.length_append, ← sound.size]
    rfl

theorem register (sound : b.Sound s root) (name attributePath : String) (orderable : Bool)
    (parser : Option ValueParser) :
    (b.register name attributePath orderable parser).1.Sound s root := by
  cases outcome : b.register name attributePath orderable parser with
  | mk after failure =>
    cases failure with
    | none => exact sound.register_made outcome
    | some e =>
      cases register_failed outcome
      exact sound

theorem addAll (sound : b.Sound s root) (specs : List FieldSpec) :
    (b.addAll specs).1.Sound s root := by
  induction specs generalizing b with
  | nil => exact sound
  | cons spec specs ih =>
    have added := sound.register spec.name spec.attributePath spec.orderable spec.parser
    rw [Building.addAll, add]
    split
    · next stopped refused =>
      rw [refused] at added
      exact added
    · next next taken =>
      rw [taken] at added
      exact ih added

theorem apply (sound : b.Sound s root) (step : CatalogStep) : (b.apply step).1.Sound s root := by
  cases step with
  | register name attributePath orderable parser =>
    exact sound.register name attributePath orderable parser
  | add spec => exact sound.register _ _ _ _
  | addAll specs => exact sound.addAll specs

theorem run (sound : b.Sound s root) (steps : List CatalogStep) : (b.run steps).Sound s root := by
  induction steps generalizing b with
  | nil => exact sound
  | cons step steps ih => exact ih (sound.apply step)

theorem start (s : Schema) (root : EntityType) :
    Sound ⟨{ schema := s, root }, []⟩ s root where
  schema_eq := rfl
  root_eq := rfl
  accounted := ⟨.none, nofun, nofun⟩
  leads := nofun
  names := List.nodup_nil
  fields _ := rfl
  size := rfl

end Sound

end Building

namespace Catalog

def build (schema : Schema) (root : EntityType) (steps : List CatalogStep) : Building :=
  (⟨{ schema, root }, []⟩ : Building).run steps

theorem sound_build (schema : Schema) (root : EntityType) (steps : List CatalogStep) :
    (build schema root steps).Sound schema root :=
  (Building.Sound.start schema root).run steps

/-- Building in place is what the catalog itself does. After any steps on a new one, a field is made
exactly if its name is free and the schema leads along its path. A field that cannot be registered
or added leaves all as it was, and one of a name that is taken is refused whatever its path; of
several fields those before the first that cannot be added stay. A name stands for the first field
made under it, there are as many fields as were made, and every join is on the way to one of
them. -/
theorem build_atomic (schema : Schema) (root : EntityType) (steps : List CatalogStep) :
    let b := build schema root steps
    b.catalog = steps.foldl perform { schema, root } ∧
    (∀ name attributePath orderable parser,
      b.register name attributePath orderable parser =
        b.record (b.catalog.register name attributePath orderable parser)) ∧
    (∀ spec, b.add spec = b.record (b.catalog.add spec)) ∧
    (∀ specs, ((b.addAll specs).1.catalog, (b.addAll specs).2) = b.catalog.addAll specs) ∧
    (∀ name attributePath orderable parser key,
      (∃ path after, path.valueType = key ∧
        b.register name attributePath orderable parser = (after, none) ∧
        after.made = b.made ++ [⟨name, attributePath, path, orderable, parser⟩]) ↔
        b.catalog.field? name = none ∧ schema.Leads root (Text.segments attributePath) key) ∧
    (∀ name attributePath orderable parser after e,
      b.register name attributePath orderable parser = (after, some e) → after = b) ∧
    (∀ spec after e, b.add spec = (after, some e) → after = b) ∧
    (∀ name attributePath orderable parser, (b.catalog.field? name).isSome →
      b.register name attributePath orderable parser = (b, some (.duplicateField name))) ∧
    (∀ spec, (b.catalog.field? spec.name).isSome →
      b.add spec = (b, some (.duplicateField spec.name))) ∧
    (∀ specs after e, b.addAll specs = (after, some e) →
      ∃ before spec rest, specs = before ++ spec :: rest ∧ b.addAll before = (after, none) ∧
        after.add spec = (after, some e)) ∧
    (∀ name, b.catalog.field? name = b.made.find? (·.name == name)) ∧
    b.catalog.size = b.made.length ∧
    ∀ j ∈ b.catalog.joins.joins, ∃ name field above, b.catalog.field? name = some field ∧
      b.catalog.joins.Chain field.path.source above ∧ j ∈ above := by
  have sound := sound_build schema root steps
  have run := Building.catalog_run ⟨{ schema, root }, []⟩ steps
  exact ⟨run, Building.register_eq _, fun _ => Building.register_eq _ _ _ _ _,
    Building.addAll_eq _, fun _ _ _ _ _ => sound.register_made_iff,
    fun _ _ _ _ _ _ => Building.register_failed, fun _ _ _ => Building.register_failed,
    fun _ _ _ _ => Building.register_taken, fun _ => Building.register_taken,
    fun _ _ _ => Building.addAll_failed, sound.fields, sound.size, fun _ => sound.reached⟩

def courses : Schema :=
  .ofList
    [⟨"Course", [⟨"name", .scalar .text⟩, ⟨"teacher", .relation "Teacher" .one⟩]⟩,
      ⟨"Teacher", [⟨"name", .scalar .text⟩, ⟨"school", .relation "School" .one⟩]⟩]

def course : EntityType :=
  ⟨"Course", [⟨"name", .scalar .text⟩, ⟨"teacher", .relation "Teacher" .one⟩]⟩

example :
    let steps :=
      [.register "school" "teacher.school.name" false none, .add { attributePath := "name" }]
    (build courses course steps).catalog.joins = {} := by
  cbv

end Catalog

end Criteria
