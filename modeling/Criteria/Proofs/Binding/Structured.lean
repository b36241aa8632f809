import Criteria.Proofs.Binding.Leaves
import Criteria.Proofs.Catalog.Building
import Mathlib

set_option autoImplicit false

namespace Criteria

structure Field.Structured (field : Field) : Prop where
  unparsed : field.parser = none
  target : field.path.valueType = none

theorem Building.Sound.valueType_eq_none_iff {b : Building} {s : Schema} {root : EntityType}
    (sound : b.Sound s root) {name : String} {field : Field}
    (present : b.catalog.field? name = some field) :
    ∃ a, s.attributeAt? root (Text.segments field.attributePath) = some a ∧
      (field.path.valueType = none ↔ a.kind.target?.isSome) :=
  (sound.leads field (sound.mem_of_field? present)).exists_attribute (Text.segments_ne_nil _)

namespace Environment

inductive Asks (env : Environment) : Condition → Prop
  | null (negated : Bool) : Asks env (.null negated)
  | amongNone {param : ParamRef} (negated : Bool) :
      env.parameters.get? param.name = some (.list []) → Asks env (.oneOf negated param)

variable {env : Environment} {field : Field} {condition : Condition}

theorem not_accepts (structured : field.Structured) (v w : Value) : ¬ env.Accepts field v w := by
  intro accepts
  cases accepts with
  | parsed _ own _ => cases structured.unparsed.symm.trans own
  | kept _ target _ => cases structured.target.symm.trans target
  | registered _ _ target _ _ _ => cases structured.target.symm.trans target

theorem not_takes (structured : field.Structured) (param : ParamRef) (v : Value) :
    ¬ env.Takes field param v := by
  intro takes
  obtain ⟨_, accepts⟩ := takes
  exact not_accepts structured _ _ accepts

theorem exists_tests_iff (structured : field.Structured) :
    (∃ t, env.Tests field condition t) ↔ env.Asks condition := by
  constructor
  · intro given
    obtain ⟨t, tests⟩ := given
    cases tests with
    | null negated => exact .null negated
    | oneOf negated takes =>
      obtain ⟨bound, accepted⟩ := takes
      cases accepted with
      | nil => exact .amongNone negated bound
      | cons accepts _ => exact absurd accepts (not_accepts structured _ _)
    | compare _ takes => exact absurd takes (not_takes structured _ _)
    | between _ takes _ => exact absurd takes (not_takes structured _ _)
    | like _ takes => exact absurd takes (not_takes structured _ _)
  · intro asks
    cases asks with
    | null negated => exact ⟨_, .null negated⟩
    | amongNone negated bound => exact ⟨_, .oneOf negated (.mk bound .nil)⟩

/-- A field without a parser of its own is structured exactly if its path ends on a relation or an
embedded value. A condition on such a field compiles exactly if it asks whether the field is null or
whether it is among none, so a filter that compiles asks nothing else of such fields. -/
theorem compileText_structured (env : Environment) (limit : ExpressionLimit) (text : String) :
    (∀ s root steps, env.catalog = (Catalog.build s root steps).catalog →
      ∀ name field, env.catalog.field? name = some field →
        ∃ a, s.attributeAt? root (Text.segments field.attributePath) = some a ∧
          (field.path.valueType = none ↔ a.kind.target?.isSome)) ∧
    (∀ (name : FieldRef) (condition : Condition) (field : Field),
      env.catalog.field? name.name = some field → field.Structured →
      ((∃ p, env.leaf name condition = .ok p) ↔ env.Asks condition)) ∧
    ∀ p, (env.compileText limit (some text)).1 = .ok (some p) →
      ∃ f, Filter.parse text = .ok f ∧ ∀ leaf ∈ f.leaves, ∀ field,
        env.catalog.field? leaf.1.name = some field → field.Structured → env.Asks leaf.2 := by
  refine ⟨fun s root steps built name field known => ?_,
    fun name condition field known structured => ?_, fun p compiled => ?_⟩
  · rw [built] at known
    exact (Catalog.sound_build s root steps).valueType_eq_none_iff known
  · rw [← compiles_iff, ← exists_tests_iff structured]
    constructor
    · intro compiles
      obtain ⟨field', t, known', tests⟩ := compiles
      cases known.symm.trans known'
      exact ⟨t, tests⟩
    · intro given
      obtain ⟨t, tests⟩ := given
      exact ⟨field, t, known, tests⟩
  · obtain ⟨f, parsed, means⟩ := compileText_eq_ok compiled
    refine ⟨f, parsed, fun leaf listed field known structured => ?_⟩
    obtain ⟨_, -, makes⟩ := exists_of_mem_left (makes_leaves f means) listed
    obtain ⟨known', tests⟩ := makes
    cases known.symm.trans known'
    exact (exists_tests_iff structured).1 ⟨_, tests⟩

def teacherAmongNone : Environment where
  catalog :=
    (Catalog.build Catalog.courses Catalog.course [.add { attributePath := "teacher" }]).catalog
  parameters := ⟨(∅ : Std.TreeMap String Value).insertMany [("t", .list [])]⟩
  coercions := .seeded

theorem teacherAmongNone_compiles :
    ∃ field, teacherAmongNone.catalog.field? "teacher" = some field ∧ field.Structured ∧
      Filter.parse "teacher IN :t" =
        .ok (.leaf ⟨"teacher", ⟨1, 0⟩⟩ (.oneOf false ⟨"t", ⟨1, 11⟩⟩)) ∧
      (teacherAmongNone.compileText .unbounded (some "teacher IN :t")).1 =
        .ok (some (.leaf field.path (.oneOf []))) := by
  refine ⟨⟨"teacher", "teacher", ⟨.join 0, [], none⟩, false, none⟩, ?known, ⟨rfl, rfl⟩, ?parsed,
    ?compiled⟩
  case known => cbv
  case parsed => cbv
  case compiled => cbv

end Environment

end Criteria
