import Criteria.Proofs.Binding.Leaves
import Criteria.Proofs.Catalog.Building
import Criteria.Proofs.Query.Steps
import Mathlib

set_option autoImplicit false

namespace Criteria

namespace JoinSet

def Starts (js : JoinSet) (path : AttributePath) : Prop :=
  ∀ id, path.source = .join id → ∃ j, js.get? id = some j

/-- A join by its number: it starts at the root or at an earlier join, and the schema declares its
types and its cardinality for walking its relation from there. -/
structure Declared (js : JoinSet) (s : Schema) (root : EntityType) (id : Nat) (j : Join) : Prop where
  id_eq : j.id = id
  parent_lt : ∀ parent, j.parent = .join parent → parent < id
  crosses : ∃ start owner next, js.start? s root j.parent = some start ∧
    s.crossing? start (Text.segments j.relation) = some (owner, next, j.cardinality) ∧
    j.source = owner.name ∧ j.target = next.name

variable {js : JoinSet} {s : Schema} {root : EntityType}

theorem Grown.declared_of_get? (grown : js.Grown s root) {id : Nat} {j : Join}
    (present : js.get? id = some j) : js.Declared s root id j where
  id_eq := grown.id_eq present
  parent_lt _ := grown.parent_lt present
  crosses := grown.declared present

theorem Locates.starts {segments : List String} {path : AttributePath} {above : List Join}
    (located : js.Locates s root segments path above) : js.Starts path := by
  intro id below
  have chain := located.chain
  rw [below] at chain
  cases chain with
  | join present _ => exact ⟨_, present⟩

end JoinSet

theorem Building.Sound.starts {b : Building} {s : Schema} {root : EntityType}
    (sound : b.Sound s root) {name : String} {field : Field}
    (present : b.catalog.field? name = some field) : b.catalog.joins.Starts field.path := by
  obtain ⟨above, located⟩ := sound.locates present
  exact located.starts

theorem Environment.leaves_starts {env : Environment}
    (starts : ∀ name field, env.catalog.field? name = some field →
      env.catalog.joins.Starts field.path)
    {limit : ExpressionLimit} {text? : Option String} {p : Predicate}
    (compiled : (env.compileText limit text?).1 = .ok (some p)) :
    ∀ leaf ∈ p.leaves, env.catalog.joins.Starts leaf.1 := by
  cases text? with
  | none => cases compiled
  | some text =>
    obtain ⟨f, -, means⟩ := compileText_eq_ok compiled
    intro leaf listed
    obtain ⟨written, _, makes⟩ := exists_of_mem_right (makes_leaves f means) listed
    obtain ⟨present, _⟩ := makes
    exact starts _ _ present

namespace Query

structure Over (catalog : Catalog) (limit : ExpressionLimit) (text : Option String) (q : Query) :
    Prop where
  catalog_eq : q.catalog = catalog
  limit_eq : q.limit = limit
  text_eq : q.rows.text = text
  ordered : ∀ order, q.order = some order →
    ∃ name field, catalog.field? name = some field ∧ order.path = field.path

variable {catalog : Catalog} {limit : ExpressionLimit} {text : Option String} {q : Query}

theorem over_start (catalog : Catalog) (limit : ExpressionLimit) (text : Option String)
    (distinct : Bool) : (start catalog limit text distinct).Over catalog limit text where
  catalog_eq := rfl
  limit_eq := rfl
  text_eq := rfl
  ordered := nofun

theorem text_of_bind {m bound : FilterModel} {name : String} {v : Value}
    (taken : m.bind name v = .ok bound) : bound.text = m.text := by
  unfold FilterModel.bind at taken
  split at taken
  · cases taken
  · cases taken
    rfl

theorem over_bind (holds : q.Over catalog limit text) (name : String) (v : Value) :
    (q.bind name v).1.Over catalog limit text := by
  unfold bind
  split
  · exact holds
  · next rows taken =>
    have text_eq := (text_of_bind taken).trans holds.text_eq
    dsimp only
    split
    · exact { holds with text_eq }
    · exact { holds with text_eq }

theorem kept_over : Kept (Over catalog limit text) where
  bind := over_bind
  order holds _ _ present _ _ := by
    refine { holds with ordered := fun order chosen => ?_ }
    cases chosen
    rw [holds.catalog_eq] at present
    exact ⟨_, _, present, rfl⟩
  page holds _ := { holds with }
  distinct holds _ := { holds with }
  predefine holds _ := { holds with }

theorem compile_eq_ok {coercions : CoercionRegistry} {compiled : CompiledQuery}
    (ok : q.compile coercions = .ok compiled) :
    compiled.order = q.order ∧ compiled.joins = q.catalog.joins ∧
      ∃ p?, (Environment.compileText ⟨q.catalog, q.rows.parameters, coercions⟩ q.limit
          q.rows.text).1 = .ok p? ∧
        compiled.filter.conjuncts = p?.toList ++ q.rows.predefined := by
  unfold compile at ok
  split at ok
  · cases ok
  · next filter found =>
    cases ok
    simp only [FilterModel.compile] at found
    split at found
    · cases found
    · next p? made =>
      cases found
      exact ⟨rfl, rfl, p?, made, rfl⟩

end Query

/-- Whatever steps were made on a new catalog and then on a query over it, a query that compiles has
the joins that the schema declares, and both the predicate of its text and its order only start from
joins that are among them. -/
theorem Provider.compile_grounded (s : Schema) (root : EntityType) (building : List CatalogStep)
    (coercions registry : CoercionRegistry) (config : Config) (text : Option String)
    (steps : List QueryStep) (compiled : CompiledQuery) :
    let catalog := (Catalog.build s root building).catalog
    let q := ((⟨catalog, coercions, config⟩ : Provider).query text).run steps
    q.compile registry = .ok compiled →
      (∀ id j, compiled.joins.get? id = some j → compiled.joins.Declared s root id j) ∧
      (∀ order, compiled.order = some order → compiled.joins.Starts order.path) ∧
      ∃ p?, (Environment.compileText ⟨catalog, q.rows.parameters, registry⟩ config.maxExpressions
          text).1 = .ok p? ∧
        compiled.filter.conjuncts = p?.toList ++ q.rows.predefined ∧
        ∀ p, p? = some p → ∀ leaf ∈ p.leaves, compiled.joins.Starts leaf.1 := by
  intro catalog q ok
  have sound := Catalog.sound_build s root building
  have holds : q.Over catalog config.maxExpressions text :=
    Query.kept_over.run (Query.over_start ..) steps
  obtain ⟨order_eq, joins_eq, p?, made, conjuncts⟩ := Query.compile_eq_ok ok
  rw [holds.catalog_eq] at joins_eq made
  rw [holds.limit_eq, holds.text_eq] at made
  rw [joins_eq]
  refine ⟨fun id j => sound.accounted.grown.declared_of_get?, fun order ordered => ?_, p?, made,
    conjuncts, fun p made' => ?_⟩
  · rw [order_eq] at ordered
    obtain ⟨name, field, present, path⟩ := holds.ordered order ordered
    rw [path]
    exact sound.starts present
  · subst made'
    exact Environment.leaves_starts (fun _ _ => sound.starts) made

namespace Query

open Catalog (courses course)

def byTeacher : List CatalogStep :=
  -- The first step fails behind a join that it has made, the other makes that join anew.
  [.register "school" "teacher.school.name" false none,
    .add { attributePath := "teacher.name", alternative := some "teacher", orderable := true }]

def ofAda : Query :=
  ((⟨(Catalog.build courses course byTeacher).catalog, .seeded, {}⟩ : Provider).query
    (some "teacher = :name")).run [.bind "name" (.text "Ada"), .order "teacher" "asc"]

def ofAdaCompiled : CompiledQuery where
  filter := ⟨[.leaf ⟨.join 0, ["name"], some .text⟩ (.compare .eq (.text "Ada"))]⟩
  order := some ⟨"teacher", ⟨.join 0, ["name"], some .text⟩, .ascending⟩
  page := {}
  distinct := true
  joins := ⟨[⟨0, .root, "teacher", "Course", "Teacher", .one⟩]⟩

theorem ofAda_grounded :
    ofAda.compile .seeded = .ok ofAdaCompiled ∧
      (∀ id j, ofAdaCompiled.joins.get? id = some j →
        ofAdaCompiled.joins.Declared courses course id j) ∧
      ∀ order, ofAdaCompiled.order = some order → ofAdaCompiled.joins.Starts order.path := by
  have compiled : ofAda.compile .seeded = .ok ofAdaCompiled := by cbv
  obtain ⟨declared, ordered, -⟩ := Provider.compile_grounded courses course byTeacher .seeded .seeded
    {} (some "teacher = :name") _ _ compiled
  exact ⟨compiled, declared, ordered⟩

end Query

end Criteria
