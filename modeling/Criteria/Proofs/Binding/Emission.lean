import Criteria.Binding.Basic
import Criteria.Proofs.Outcome

set_option autoImplicit false

namespace Criteria

namespace Emission

variable {α β : Type}

def andThen (u : Emission α) (k : α → Nat → Emission β) : Emission β :=
  match u with
  | ⟨.error e, emitted⟩ => ⟨.error e, emitted⟩
  | ⟨.ok a, emitted⟩ => k a emitted

theorem andThen_of_ok {u : Emission α} {a : α} (ok : u.result = .ok a)
    (k : α → Nat → Emission β) : u.andThen k = k a u.emitted := by
  obtain ⟨result, emitted⟩ := u
  cases ok
  rfl

theorem andThen_of_error {u : Emission α} {e : FilterError} (error : u.result = .error e)
    (k : α → Nat → Emission β) : u.andThen k = ⟨.error e, u.emitted⟩ := by
  obtain ⟨result, emitted⟩ := u
  cases error
  rfl

theorem andThen_result (u : Emission α) (k : α → Nat → Emission β) :
    (u.andThen k).result = u.result >>= fun a => (k a u.emitted).result := by
  cases h : u.result with
  | error e => rw [andThen_of_error h]; rfl
  | ok a => rw [andThen_of_ok h]; rfl

theorem le_andThen {u : Emission α} {k : α → Nat → Emission β} {emitted : Nat}
    (before : emitted ≤ u.emitted) (grows : ∀ a n, n ≤ (k a n).emitted) :
    emitted ≤ (u.andThen k).emitted := by
  cases h : u.result with
  | error e =>
    rw [andThen_of_error h]
    exact before
  | ok a =>
    rw [andThen_of_ok h]
    exact Nat.le_trans before (grows a u.emitted)

theorem andThen_le {u : Emission α} {k : α → Nat → Emission β} {bound : Nat}
    (more : Nat) (before : u.emitted ≤ bound) (grows : ∀ a n, (k a n).emitted ≤ n + more) :
    (u.andThen k).emitted ≤ bound + more := by
  cases outcome : u.result with
  | error e =>
    rw [andThen_of_error outcome]
    exact Nat.le_add_right_of_le before
  | ok a =>
    rw [andThen_of_ok outcome]
    exact Nat.le_trans (grows a u.emitted) (Nat.add_le_add_right before more)

theorem emit_unbounded (emitted : Nat) (a : α) :
    emit .unbounded emitted a = ⟨.ok a, emitted + 1⟩ :=
  rfl

theorem emit_atMost (max emitted : Nat) (a : α) :
    emit (.atMost max) emitted a =
      if emitted < max then ⟨.ok a, emitted + 1⟩
      else ⟨.error (.limitExceeded max), emitted + 1⟩ := by
  by_cases below : emitted < max
  · have kept : ¬ max < emitted + 1 := by omega
    simp [emit, ExpressionLimit.exceededBy, kept, below]
  · have exceeded : max < emitted + 1 := by omega
    simp [emit, ExpressionLimit.exceededBy, ExpressionLimit.max?, exceeded, below]

theorem le_emit_unbounded (emitted : Nat) (a : α) :
    emitted ≤ (emit .unbounded emitted a).emitted :=
  Nat.le_succ emitted

end Emission

namespace Environment

variable (env : Environment) (limit : ExpressionLimit)

theorem compileFrom_leaf (name : FieldRef) (condition : Condition) (emitted : Nat) :
    env.compileFrom limit (.leaf name condition) emitted =
      Emission.andThen ⟨env.leaf name condition, emitted⟩ fun p emitted =>
        .emit limit emitted (p.negateIf condition.negated) := by
  rw [compileFrom]
  cases env.leaf name condition <;> rfl

theorem compileFrom_group (op : Connective) (fs : List Filter) (emitted : Nat) :
    env.compileFrom limit (.group op fs) emitted =
      (env.compileOperands limit fs emitted).andThen fun ps emitted =>
        .emit limit emitted (.group op ps) := by
  rw [compileFrom]
  rcases env.compileOperands limit fs emitted with ⟨_ | ps, made⟩ <;> rfl

theorem compileOperands_nil (emitted : Nat) :
    env.compileOperands limit [] emitted = ⟨.ok [], emitted⟩ := by
  rw [compileOperands]

theorem compileOperands_cons (f : Filter) (fs : List Filter) (emitted : Nat) :
    env.compileOperands limit (f :: fs) emitted =
      (env.compileFrom limit f emitted).andThen fun p emitted =>
        (env.compileOperands limit fs emitted).andThen fun ps emitted =>
          ⟨.ok (p :: ps), emitted⟩ := by
  rw [compileOperands]
  rcases env.compileFrom limit f emitted with ⟨_ | p, made⟩
  · rfl
  · simp only [Emission.andThen]
    rcases env.compileOperands limit fs made with ⟨_ | ps, last⟩ <;> rfl

end Environment

end Criteria
