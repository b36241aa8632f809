import Criteria.Proofs.Binding.Emission

set_option autoImplicit false

namespace Criteria

namespace Emission

variable {α β : Type} {max emitted : Nat}

def cutAt (max : Nat) (u : Emission α) : Emission α :=
  if u.emitted ≤ max then u else ⟨.error (.limitExceeded max), max + 1⟩

theorem cutAt_of_le {u : Emission α} (within : u.emitted ≤ max) : u.cutAt max = u :=
  if_pos within

theorem cutAt_of_lt {u : Emission α} (beyond : max < u.emitted) :
    u.cutAt max = ⟨.error (.limitExceeded max), max + 1⟩ :=
  if_neg (Nat.not_le_of_lt beyond)

theorem emitted_cutAt (u : Emission α) : (u.cutAt max).emitted = min u.emitted (max + 1) := by
  by_cases within : u.emitted ≤ max
  · rw [cutAt_of_le within, Nat.min_eq_left (Nat.le_succ_of_le within)]
  · have beyond : max + 1 ≤ u.emitted := Nat.lt_of_not_le within
    rw [cutAt_of_lt beyond, Nat.min_eq_right beyond]

theorem emit_eq_cutAt (room : emitted ≤ max) (a : α) :
    emit (.atMost max) emitted a = (emit .unbounded emitted a).cutAt max := by
  by_cases below : emitted < max
  · rw [cutAt_of_le below, emit_atMost, if_pos below, emit_unbounded]
  · rw [cutAt_of_lt (Nat.lt_succ_of_le (Nat.le_of_not_lt below)), emit_atMost, if_neg below,
      Nat.le_antisymm room (Nat.le_of_not_lt below)]

theorem cutAt_andThen {u : Emission α} {k cut : α → Nat → Emission β}
    (grows : ∀ a n, n ≤ (k a n).emitted) (cuts : ∀ a n, n ≤ max → cut a n = (k a n).cutAt max) :
    (u.cutAt max).andThen cut = (u.andThen k).cutAt max := by
  -- Either the first part is over the limit, or the cut falls into the part that follows.
  by_cases within : u.emitted ≤ max
  · rw [cutAt_of_le within]
    cases h : u.result with
    | error e =>
      rw [andThen_of_error h, andThen_of_error h]
      exact (cutAt_of_le (u := ⟨.error e, u.emitted⟩) within).symm
    | ok a =>
      rw [andThen_of_ok h, andThen_of_ok h]
      exact cuts a u.emitted within
  · have beyond : max < u.emitted := Nat.lt_of_not_le within
    rw [cutAt_of_lt beyond, cutAt_of_lt (Nat.lt_of_lt_of_le beyond (le_andThen (Nat.le_refl _) grows))]
    rfl

end Emission

namespace Environment

variable {env : Environment} {max : Nat}

mutual

theorem le_emitted (f : Filter) (emitted : Nat) :
    emitted ≤ (env.compileFrom .unbounded f emitted).emitted := by
  match f with
  | .leaf name condition =>
    rw [compileFrom_leaf]
    exact Emission.le_andThen (Nat.le_refl emitted) fun _ n => Emission.le_emit_unbounded n _
  | .group op fs =>
    rw [compileFrom_group]
    exact Emission.le_andThen (le_operandsEmitted fs emitted) fun _ n =>
      Emission.le_emit_unbounded n _

theorem le_operandsEmitted (fs : List Filter) (emitted : Nat) :
    emitted ≤ (env.compileOperands .unbounded fs emitted).emitted := by
  match fs with
  | [] =>
    simp [compileOperands_nil]
  | f :: fs =>
    rw [compileOperands_cons]
    exact Emission.le_andThen (le_emitted f emitted) fun _ n =>
      Emission.le_andThen (le_operandsEmitted fs n) fun _ m => Nat.le_refl m

end

mutual

theorem emitted_le (f : Filter) (emitted : Nat) :
    (env.compileFrom .unbounded f emitted).emitted ≤ emitted + f.size := by
  match f with
  | .leaf name condition =>
    rw [compileFrom_leaf]
    exact Emission.andThen_le 1 (Nat.le_refl emitted) fun _ _ => Nat.le_refl _
  | .group op fs =>
    rw [compileFrom_group, Filter.size, Nat.add_comm 1, ← Nat.add_assoc]
    exact Emission.andThen_le 1 (operandsEmitted_le fs emitted) fun _ _ => Nat.le_refl _

theorem operandsEmitted_le (fs : List Filter) (emitted : Nat) :
    (env.compileOperands .unbounded fs emitted).emitted ≤ emitted + Filter.sizes fs := by
  match fs with
  | [] =>
    rw [compileOperands_nil]
    exact Nat.le_refl emitted
  | f :: fs =>
    rw [compileOperands_cons, Filter.sizes, ← Nat.add_assoc]
    exact Emission.andThen_le _ (emitted_le f emitted) fun _ n =>
      Emission.andThen_le 0 (operandsEmitted_le fs n) fun _ m => Nat.le_refl m

end

mutual

theorem emitted_of_ok (f : Filter) {emitted : Nat} {p : Predicate}
    (compiled : (env.compileFrom .unbounded f emitted).result = .ok p) :
    (env.compileFrom .unbounded f emitted).emitted = emitted + f.size := by
  match f with
  | .leaf name condition =>
    rw [compileFrom_leaf, Emission.andThen_result, bind_eq_ok_iff] at compiled
    obtain ⟨positive, leaf, -⟩ := compiled
    rw [compileFrom_leaf, Emission.andThen_of_ok leaf]
    rfl
  | .group op fs =>
    rw [compileFrom_group, Emission.andThen_result, bind_eq_ok_iff] at compiled
    obtain ⟨ps, operands, -⟩ := compiled
    have count := operandsEmitted_of_ok fs operands
    rw [compileFrom_group, Emission.andThen_of_ok operands, Filter.size, count]
    simp only [Emission.emit_unbounded]
    omega

theorem operandsEmitted_of_ok (fs : List Filter) {emitted : Nat} {ps : List Predicate}
    (compiled : (env.compileOperands .unbounded fs emitted).result = .ok ps) :
    (env.compileOperands .unbounded fs emitted).emitted = emitted + Filter.sizes fs := by
  match fs with
  | [] => rw [compileOperands_nil, Filter.sizes, Nat.add_zero]
  | f :: fs =>
    simp only [compileOperands_cons, Emission.andThen_result, bind_eq_ok_iff] at compiled
    obtain ⟨p, first, ps, rest, -⟩ := compiled
    have count := emitted_of_ok f first
    have total := operandsEmitted_of_ok fs rest
    rw [compileOperands_cons, Emission.andThen_of_ok first, Emission.andThen_of_ok rest]
    simp only [Filter.sizes]
    omega

end

mutual

theorem compileFrom_atMost (f : Filter) {emitted : Nat} (room : emitted ≤ max) :
    env.compileFrom (.atMost max) f emitted = (env.compileFrom .unbounded f emitted).cutAt max := by
  match f with
  | .leaf name condition =>
    rw [compileFrom_leaf, compileFrom_leaf, ← Emission.cutAt_andThen
      (fun _ n => Emission.le_emit_unbounded n _) fun _ _ below => Emission.emit_eq_cutAt below _]
    rw [Emission.cutAt_of_le room]
  | .group op fs =>
    rw [compileFrom_group, compileFrom_group, ← Emission.cutAt_andThen
      (fun _ n => Emission.le_emit_unbounded n _) fun _ _ below => Emission.emit_eq_cutAt below _]
    rw [compileOperands_atMost fs room]

theorem compileOperands_atMost (fs : List Filter) {emitted : Nat} (room : emitted ≤ max) :
    env.compileOperands (.atMost max) fs emitted =
      (env.compileOperands .unbounded fs emitted).cutAt max := by
  match fs with
  | [] =>
    rw [compileOperands_nil, compileOperands_nil, Emission.cutAt_of_le room]
  | f :: fs =>
    have grows : ∀ (ps : List Predicate) (p : Predicate) (n : Nat),
        n ≤ (⟨.ok (p :: ps), n⟩ : Emission (List Predicate)).emitted := fun _ _ n => Nat.le_refl n
    rw [compileOperands_cons, compileOperands_cons, compileFrom_atMost f room]
    -- Cut off in the first operand or in the others: either way what follows only adds to the count.
    apply Emission.cutAt_andThen
    · exact fun p n => Emission.le_andThen (le_operandsEmitted fs n) fun ps m => grows ps p m
    · intro p n below
      rw [compileOperands_atMost fs below]
      apply Emission.cutAt_andThen
      · exact fun ps m => grows ps p m
      · exact fun ps m within => (Emission.cutAt_of_le within).symm

end

/-- A limit leaves the outcome as it is without one, if no more predicates are made than it allows;
the count stops at the first predicate over the limit. -/
theorem compile_atMost (env : Environment) (f : Filter) (max : Nat) :
    (∀ p, (env.compile .unbounded f).result = .ok p →
      (env.compile .unbounded f).emitted = f.size ∧
        (env.compile (.atMost max) f).result =
          if f.size ≤ max then .ok p else .error (.limitExceeded max)) ∧
    (∀ e, (env.compile .unbounded f).result = .error e →
      (env.compile (.atMost max) f).result =
        .error (if (env.compile .unbounded f).emitted ≤ max then e else .limitExceeded max)) ∧
    (env.compile (.atMost max) f).emitted =
      min (env.compile .unbounded f).emitted (max + 1) := by
  -- The limited run is the unlimited one cut off; all else is told of the unlimited run.
  have cut : env.compile (.atMost max) f = (env.compile .unbounded f).cutAt max :=
    compileFrom_atMost f (Nat.zero_le max)
  refine ⟨fun p ok => ?_, fun e error => ?_, ?_⟩
  · have count : (env.compile .unbounded f).emitted = f.size := by
      rw [compile, emitted_of_ok f ok, Nat.zero_add]
    refine ⟨count, ?_⟩
    rw [cut, Emission.cutAt, count, apply_ite Emission.result, ok]
  · rw [cut, Emission.cutAt, apply_ite Emission.result, error]
    split <;> rfl
  · rw [cut, Emission.emitted_cutAt]

end Environment

end Criteria
