import Criteria.Proofs.Binding.Agreement
import Criteria.Proofs.Binding.Cutoff

set_option autoImplicit false

namespace Criteria

namespace Environment

inductive Culprit (env : Environment) (limit : ExpressionLimit) (f : Filter) : FilterError → Prop
  | unknownField {leaf : FieldRef × Condition} :
      leaf ∈ f.leaves → env.catalog.field? leaf.1.name = none →
      Culprit env limit f (.unknownField leaf.1.name)
  | unbound {name : String} :
      name ∈ f.parameters → env.parameters.get? name = none →
      Culprit env limit f (.parameterNotBound name)
  | refused {name : String} {v : Value} (cause : CoercionError) :
      name ∈ f.parameters → env.parameters.get? name = some v →
      Culprit env limit f (.coercion name cause)
  | shape {name : String} {v : Value} (expected : ParameterShape) :
      name ∈ f.parameters → env.parameters.get? name = some v →
      Culprit env limit f (.typeMismatch name expected)
  | size {max : Nat} :
      limit = .atMost max → max < f.size → Culprit env limit f (.limitExceeded max)

variable {env : Environment} {limit : ExpressionLimit} {f : Filter} {field : Field}
  {e : FilterError}

theorem ParamFault.culprit {param : ParamRef} (fault : env.ParamFault field param e)
    (named : param.name ∈ f.parameters) : Culprit env limit f e := by
  cases fault with
  | unbound unbound => exact .unbound named unbound
  | refused bound _ => exact .refused _ named bound

theorem ItemsFault.culprit {param : ParamRef} (fault : env.ItemsFault field param e)
    (named : param.name ∈ f.parameters) : Culprit env limit f e := by
  cases fault with
  | unbound unbound => exact .unbound named unbound
  | noList bound _ => exact .shape .list named bound
  | refused bound _ _ => exact .refused _ named bound

theorem TestFault.culprit {condition : Condition} (fault : env.TestFault field condition e)
    (named : ∀ param ∈ condition.params, param.name ∈ f.parameters) : Culprit env limit f e := by
  cases fault with
  | compare _ fault => exact fault.culprit (named _ (by simp [Condition.params]))
  | low _ fault => exact fault.culprit (named _ (by simp [Condition.params]))
  | high _ _ fault => exact fault.culprit (named _ (by simp [Condition.params]))
  | oneOf _ fault => exact fault.culprit (named _ (by simp [Condition.params]))
  | like _ fault => exact fault.culprit (named _ (by simp [Condition.params]))
  | noText _ takes _ =>
    cases takes with
    | mk bound _ => exact .shape .text (named _ (by simp [Condition.params])) bound

theorem LeafFault.culprit {leaf : FieldRef × Condition} (fault : env.LeafFault leaf e)
    (listed : leaf ∈ f.leaves) : Culprit env limit f e := by
  cases fault with
  | unknown unknown => exact .unknownField listed unknown
  | test _ fault => exact fault.culprit fun _ => Filter.mem_parameters listed

theorem FirstFault.exists_leaf {leaves : List (FieldRef × Condition)}
    (fault : env.FirstFault leaves e) : ∃ leaf ∈ leaves, env.LeafFault leaf e := by
  induction fault with
  | @here leaf _ later fault => exact ⟨leaf, List.mem_cons_self, fault⟩
  | later _ _ ih =>
    obtain ⟨leaf, listed, fault⟩ := ih
    exact ⟨leaf, List.mem_cons_of_mem _ listed, fault⟩

theorem FirstFault.culprit (fault : env.FirstFault f.leaves e) : Culprit env limit f e := by
  obtain ⟨leaf, listed, fault⟩ := fault.exists_leaf
  exact fault.culprit listed

theorem culprit_of_compile (failed : (env.compile limit f).result = .error e) :
    Culprit env limit f e := by
  cases limit with
  | unbounded => exact FirstFault.culprit ((result_eq_error_iff f).1 failed)
  | atMost max =>
    -- The limit either leaves the error as it is or tells its own.
    rw [compile, compileFrom_atMost f (Nat.zero_le max)] at failed
    by_cases within : (env.compileFrom .unbounded f 0).emitted ≤ max
    · rw [Emission.cutAt_of_le within] at failed
      exact FirstFault.culprit ((result_eq_error_iff f).1 failed)
    · have beyond := Nat.lt_of_not_le within
      have counted : (env.compileFrom .unbounded f 0).emitted ≤ 0 + f.size := emitted_le f 0
      rw [Nat.zero_add] at counted
      rw [Emission.cutAt_of_lt beyond] at failed
      cases failed
      exact .size rfl (Nat.lt_of_lt_of_le beyond counted)

end Environment

end Criteria
