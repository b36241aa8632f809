import Criteria.Proofs.Binding.Leaves
import Criteria.Proofs.Coercion.Typing
import Mathlib

set_option autoImplicit false

namespace Criteria

def Test.values : Test → List Value
  | compare _ v => [v]
  | between low high => [low, high]
  | oneOf values => values
  | null => []
  | like _ => []

structure Field.Fits (field : Field) (t : Test) : Prop where
  values : ∀ key, field.path.valueType = some key → key.isCustom = false →
    ∀ v ∈ t.values, v.key? = some key
  pattern : ∀ pattern, t = .like pattern →
    ∃ key, field.path.valueType = some key ∧ (key = .text ∨ key.isCustom = true)

namespace Environment

variable {env : Environment} {field : Field}

theorem Accepts.yields {v w : Value} (accepts : env.Accepts field v w)
    (typed : env.coercions.Typed) (unparsed : field.parser = none) :
    ∃ key, field.path.valueType = some key ∧ (key.isCustom = false → w.key? = some key) := by
  cases accepts with
  | parsed _ own _ => cases unparsed.symm.trans own
  | @kept key _ _ target same => exact ⟨key, target, fun _ => same⟩
  | @registered key p _ _ _ _ target _ registered made =>
    exact ⟨key, target, fun builtin => typed key p builtin registered v w made⟩

theorem Accepts.key? {key : TypeKey} {v w : Value} (accepts : env.Accepts field v w)
    (typed : env.coercions.Typed) (unparsed : field.parser = none)
    (target : field.path.valueType = some key) (builtin : key.isCustom = false) :
    w.key? = some key := by
  obtain ⟨other, target', yields⟩ := accepts.yields typed unparsed
  cases target.symm.trans target'
  exact yields builtin

theorem Tests.key? {key : TypeKey} {condition : Condition} {t : Test}
    (tests : env.Tests field condition t) (typed : env.coercions.Typed)
    (unparsed : field.parser = none) (target : field.path.valueType = some key)
    (builtin : key.isCustom = false) : ∀ v ∈ t.values, v.key? = some key := by
  have single {param : ParamRef} {v : Value} (takes : env.Takes field param v) :
      v.key? = some key := by
    obtain ⟨_, accepts⟩ := takes
    exact accepts.key? typed unparsed target builtin
  cases tests with
  | compare op takes => exact List.forall_mem_singleton.2 (single takes)
  | between _ low high =>
    exact List.forall_mem_cons.2 ⟨single low, List.forall_mem_singleton.2 (single high)⟩
  | oneOf _ takes =>
    obtain ⟨_, accepted⟩ := takes
    intro v listed
    obtain ⟨item, _, accepts⟩ := exists_of_mem_right accepted listed
    exact accepts.key? typed unparsed target builtin
  | null | like => exact nofun

theorem Tests.fits {condition : Condition} {t : Test} (tests : env.Tests field condition t)
    (typed : env.coercions.Typed) (unparsed : field.parser = none) : field.Fits t where
  values _ target builtin := tests.key? typed unparsed target builtin
  pattern pattern like := by
    subst like
    cases tests with
    | like _ takes =>
      obtain ⟨_, accepts⟩ := takes
      obtain ⟨key, target, yields⟩ := accepts.yields typed unparsed
      refine ⟨key, target, ?_⟩
      cases builtin : key.isCustom with
      | true => exact .inr rfl
      | false => exact .inl (Option.some.inj (yields builtin)).symm

def MakesFitting (env : Environment) (written : FieldRef × Condition)
    (made : AttributePath × Test) : Prop :=
  ∃ field, env.catalog.field? written.1.name = some field ∧ made.1 = field.path ∧
    env.Tests field written.2 made.2 ∧ (field.parser = none → field.Fits made.2)

/-- If the parsers registered for built-in types keep to their types, as the seeded ones do under
any date formats, then the tests of a predicate that a filter compiles to are made by the conditions
of the filter, in their order, and fit their fields. -/
theorem compileText_fits :
    (∀ dates, ({ CoercionRegistry.seeded with dates } : CoercionRegistry).Typed) ∧
    ∀ (env : Environment) (limit : ExpressionLimit) (text : String) (p : Predicate),
      env.coercions.Typed → (env.compileText limit (some text)).1 = .ok (some p) →
      ∃ f, Filter.parse text = .ok f ∧ List.Forall₂ env.MakesFitting f.leaves p.leaves := by
  refine ⟨CoercionRegistry.typed_seeded, fun env limit text p typed compiled => ?_⟩
  obtain ⟨f, parsed, means⟩ := compileText_eq_ok compiled
  refine ⟨f, parsed, (makes_leaves f means).imp fun written made makes => ?_⟩
  obtain ⟨known, tests⟩ := makes
  exact ⟨_, known, rfl, tests, tests.fits typed⟩

def creditsAndName : Environment where
  catalog :=
    { schema := {}, root := ⟨"Course", []⟩
      fields := (∅ : Std.TreeMap String Field).insertMany
        [("credits", ⟨"credits", "credits", ⟨.root, ["credits"], some (.int .int)⟩, false, none⟩),
          ("name", ⟨"name", "name", ⟨.root, ["name"], some .text⟩, false, none⟩)] }
  parameters := ⟨(∅ : Std.TreeMap String Value).insertMany
    [("low", .text "5"), ("high", .int ⟨.long, 7, by decide⟩), ("first", .char 'L'),
      ("some", .list [.text "+3", .int ⟨.byte, -1, by decide⟩])]⟩
  coercions := .seeded

def creditsAndNameText : String :=
  "credits BETWEEN :low AND :high OR name NOT LIKE :first OR credits IN :some"

def creditsAndNamePredicate : Predicate :=
  .group .or
    [.leaf ⟨.root, ["credits"], some (.int .int)⟩
        (.between (.int ⟨.int, 5, by decide⟩) (.int ⟨.int, 7, by decide⟩)),
      .not (.leaf ⟨.root, ["name"], some .text⟩ (.like "L")),
      .leaf ⟨.root, ["credits"], some (.int .int)⟩
        (.oneOf [.int ⟨.int, 3, by decide⟩, .int ⟨.int, -1, by decide⟩])]

theorem creditsAndName_fits :
    creditsAndName.coercions.Typed ∧
      (creditsAndName.compileText .unbounded (some creditsAndNameText)).1 =
        .ok (some creditsAndNamePredicate) ∧
      ∃ f, Filter.parse creditsAndNameText = .ok f ∧
        List.Forall₂ creditsAndName.MakesFitting f.leaves creditsAndNamePredicate.leaves := by
  have typed : creditsAndName.coercions.Typed := compileText_fits.1 {}
  have compiled : (creditsAndName.compileText .unbounded (some creditsAndNameText)).1 =
      .ok (some creditsAndNamePredicate) := by cbv
  exact ⟨typed, compiled, compileText_fits.2 creditsAndName _ _ _ typed compiled⟩

end Environment

end Criteria
