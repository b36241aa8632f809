import Criteria.Proofs.Binding.Cutoff
import Criteria.Proofs.Binding.Meaning

set_option autoImplicit false

namespace Criteria

namespace Environment

variable {env : Environment}

inductive Makes (env : Environment) : FieldRef × Condition → AttributePath × Test → Prop
  | mk {name : FieldRef} {condition : Condition} {field : Field} {t : Test} :
      env.catalog.field? name.name = some field → env.Tests field condition t →
      Makes env (name, condition) (field.path, t)

mutual

theorem makes_leaves (f : Filter) {p : Predicate} (means : env.Means f p) :
    List.Forall₂ env.Makes f.leaves p.leaves := by
  match f with
  | .leaf name condition =>
    -- A negation around the test has the leaves of the test.
    cases means with
    | plain known tests _ => exact .cons (.mk known tests) .nil
    | negated known tests _ => exact .cons (.mk known tests) .nil
  | .group op fs =>
    cases means with
    | group op means => exact makes_operandLeaves fs means

theorem makes_operandLeaves (fs : List Filter) {ps : List Predicate}
    (means : env.MeansOperands fs ps) :
    List.Forall₂ env.Makes (Filter.operandLeaves fs) (Predicate.operandLeaves ps) := by
  match fs with
  | [] =>
    cases means
    exact .nil
  | f :: fs =>
    cases means with
    | cons first rest => exact List.rel_append (makes_leaves f first) (makes_operandLeaves fs rest)

end

theorem means_of_compile {limit : ExpressionLimit} {f : Filter} {p : Predicate}
    (compiled : (env.compile limit f).result = .ok p) : env.Means f p := by
  cases limit with
  | unbounded => exact (result_eq_ok_iff f).1 compiled
  | atMost max =>
    -- A compilation that the limit cuts off has no predicate.
    rw [compile, compileFrom_atMost f (Nat.zero_le max), Emission.cutAt] at compiled
    split at compiled
    · exact (result_eq_ok_iff f).1 compiled
    · cases compiled

theorem compileText_eq_ok {limit : ExpressionLimit} {text : String} {p : Predicate}
    (compiled : (env.compileText limit (some text)).1 = .ok (some p)) :
    ∃ f, Filter.parse text = .ok f ∧ env.Means f p := by
  rw [compileText] at compiled
  split at compiled
  · cases compiled
  · next f parsed =>
    refine ⟨f, parsed, ?_⟩
    cases outcome : (env.compile limit f).result with
    | error e =>
      simp only [outcome, Except.map] at compiled
      cases compiled
    | ok q =>
      simp only [outcome, Except.map] at compiled
      cases compiled
      exact means_of_compile outcome

theorem compileText_ne_none {limit : ExpressionLimit} {text : String} :
    (env.compileText limit (some text)).1 ≠ .ok none := by
  cases parsed : Filter.parse text with
  | error e => simp [compileText, parsed]
  | ok f =>
    cases outcome : (env.compile limit f).result <;>
      simp [compileText, parsed, outcome, Except.map]

theorem compileText_unbounded {limit : ExpressionLimit} {text? : Option String}
    {p? : Option Predicate} (compiled : (env.compileText limit text?).1 = .ok p?) :
    (env.compileText .unbounded text?).1 = .ok p? ∧ (p? = none ↔ text? = none) := by
  cases text? with
  | none =>
    cases compiled
    exact ⟨rfl, by simp⟩
  | some text =>
    cases p? with
    | none => exact absurd compiled compileText_ne_none
    | some p =>
      obtain ⟨f, parsed, means⟩ := compileText_eq_ok compiled
      have unlimited : (env.compile .unbounded f).result = .ok p := (result_eq_ok_iff f).2 means
      exact ⟨by simp only [compileText, parsed, unlimited, Except.map], by simp⟩

end Environment

end Criteria
