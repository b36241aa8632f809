import Criteria.Proofs.Binding.Culprit
import Criteria.Proofs.Binding.Leaves
import Criteria.Proofs.Filter.ParameterNames

set_option autoImplicit false

namespace Criteria

open Grammar

namespace Environment

def Binds (env : Environment) (name : String) : Prop :=
  env.parameters.get? name ≠ none

variable {env : Environment} {limit : ExpressionLimit} {field : Field} {f : Filter}

theorem Takes.binds {param : ParamRef} {v : Value} (takes : env.Takes field param v) :
    env.Binds param.name := by
  obtain ⟨bound, _⟩ := takes
  simp [Binds, bound]

theorem TakesItems.binds {param : ParamRef} {values : List Value}
    (takes : env.TakesItems field param values) : env.Binds param.name := by
  obtain ⟨bound, _⟩ := takes
  simp [Binds, bound]

theorem Tests.binds {condition : Condition} {t : Test} (tests : env.Tests field condition t) :
    ∀ param ∈ condition.params, env.Binds param.name := by
  cases tests with
  | compare _ takes | like _ takes => exact List.forall_mem_singleton.2 takes.binds
  | oneOf _ takes => exact List.forall_mem_singleton.2 takes.binds
  | between _ low high =>
    exact List.forall_mem_cons.2 ⟨low.binds, List.forall_mem_singleton.2 high.binds⟩
  | null => exact nofun

theorem binds_of_means {p : Predicate} (means : env.Means f p) :
    ∀ name ∈ f.parameters, env.Binds name := by
  intro name named
  rw [Filter.parameters_eq_flatMap] at named
  obtain ⟨leaf, listed, named⟩ := List.mem_flatMap.1 named
  obtain ⟨param, listed', rfl⟩ := List.mem_map.1 named
  obtain ⟨field, t, -, tests⟩ := (exists_means_iff f).1 ⟨p, means⟩ leaf listed
  exact tests.binds param listed'

theorem compileText_of_parse {text : String} (parsed : Filter.parse text = .ok f) :
    (env.compileText limit (some text)).1 = (env.compile limit f).result.map some := by
  simp only [compileText, parsed]

/-- The parameters of what a text is parsed as are the names behind its colons, one behind each, in
their order. Whatever the environment and the limit, compiling the text never tells that a parameter
is not bound if these all are, and never succeeds if one of them is not. -/
theorem compileText_parameters {text : String} {f : Filter} (parsed : Filter.parse text = .ok f) :
    (∃ s, tokenize text = .ok s ∧
      namesBehindColons (lexemes s.tokens) = f.parameters.map some) ∧
    ∀ (env : Environment) (limit : ExpressionLimit),
      ((∀ name ∈ f.parameters, env.Binds name) →
        ∀ name, (env.compileText limit (some text)).1 ≠ .error (.parameterNotBound name)) ∧
      ((∃ name ∈ f.parameters, ¬ env.Binds name) →
        ∀ p?, (env.compileText limit (some text)).1 ≠ .ok p?) := by
  constructor
  · obtain ⟨s, tokens, sentence, -⟩ := Filter.sentence_of_parse parsed
    exact ⟨s, tokens, sentence.names⟩
  intro env limit
  rw [compileText_of_parse parsed]
  cases outcome : (env.compile limit f).result with
  | ok p =>
    -- The predicate has a test for each condition, made of values for all of its parameters.
    constructor
    · intro _ name failed
      cases failed
    · intro missing
      obtain ⟨name, named, unbound⟩ := missing
      exact absurd (binds_of_means (means_of_compile outcome) name named) unbound
  | error e =>
    constructor
    · intro bound name failed
      cases failed
      cases culprit_of_compile outcome with
      | unbound named missing => exact bound name named missing
    · intro _ p? compiled
      cases compiled

def rangeText : String :=
  "name BETWEEN :low AND :n OR name LIKE :low"

def rangeFilter : Filter :=
  .group .or
    [.leaf ⟨"name", ⟨1, 0⟩⟩ (.between false ⟨"low", ⟨1, 13⟩⟩ ⟨"n", ⟨1, 22⟩⟩),
      .leaf ⟨"name", ⟨1, 28⟩⟩ (.like false ⟨"low", ⟨1, 38⟩⟩)]

theorem rangeText_requires_low :
    Filter.parse rangeText = .ok rangeFilter ∧ rangeFilter.parameters = ["low", "n", "low"] ∧
      ¬ byName.Binds "low" ∧ (∀ p?, (byName.compileText .unbounded (some rangeText)).1 ≠ .ok p?) ∧
      (∀ name ∈ rangeFilter.parameters, byNameAndMore.Binds name) ∧
      ∀ name, (byNameAndMore.compileText (.atMost 1) (some rangeText)).1 ≠
        .error (.parameterNotBound name) := by
  have parsed : Filter.parse rangeText = .ok rangeFilter := by cbv
  have named : rangeFilter.parameters = ["low", "n", "low"] := rfl
  have missing : ¬ byName.Binds "low" := fun bound => bound rfl
  have bound : ∀ name ∈ rangeFilter.parameters, byNameAndMore.Binds name := by
    rw [named]
    unfold Binds
    decide
  obtain ⟨-, required⟩ := compileText_parameters parsed
  exact ⟨parsed, named, missing, (required byName .unbounded).2 ⟨"low", by simp [named], missing⟩,
    bound, (required byNameAndMore (.atMost 1)).1 bound⟩

end Environment

end Criteria
