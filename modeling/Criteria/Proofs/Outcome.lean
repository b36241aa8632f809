import Mathlib.Data.List.Forall2

set_option autoImplicit false

namespace Criteria

variable {ε α β : Type}

theorem bind_eq_ok_iff {x : Except ε α} {f : α → Except ε β} {b : β} :
    (x >>= f) = .ok b ↔ ∃ a, x = .ok a ∧ f a = .ok b := by
  cases x <;> simp [bind, Except.bind]

theorem bind_eq_error_iff {x : Except ε α} {f : α → Except ε β} {e : ε} :
    (x >>= f) = .error e ↔ x = .error e ∨ ∃ a, x = .ok a ∧ f a = .error e := by
  cases x <;> simp [bind, Except.bind]

theorem bind_pure_eq_ok_iff {x : Except ε α} {g : α → β} {b : β} :
    (x >>= fun a => pure (g a)) = .ok b ↔ ∃ a, x = .ok a ∧ g a = b := by
  cases x <;> simp [bind, Except.bind, pure, Except.pure]

theorem bind_pure_eq_error_iff {x : Except ε α} {g : α → β} {e : ε} :
    (x >>= fun a => pure (g a)) = .error e ↔ x = .error e := by
  cases x <;> simp [bind, Except.bind, pure, Except.pure]

theorem mapM_eq_ok_iff {f : α → Except ε β} {xs : List α} {ys : List β} :
    xs.mapM f = .ok ys ↔ List.Forall₂ (fun x y => f x = .ok y) xs ys := by
  induction xs generalizing ys with
  | nil => cases ys <;> simp [pure, Except.pure]
  | cons x xs ih =>
    simp only [List.mapM_cons, bind_eq_ok_iff, ih, List.forall₂_cons_left_iff]
    constructor
    · intro given
      obtain ⟨y, head, ys, tail, made⟩ := given
      cases made
      exact ⟨y, ys, head, tail, rfl⟩
    · intro given
      obtain ⟨y, ys, head, tail, rfl⟩ := given
      exact ⟨y, head, ys, tail, rfl⟩

theorem mapM_eq_error_iff {f : α → Except ε β} {xs : List α} {e : ε} :
    xs.mapM f = .error e ↔ ∃ before x after, xs = before ++ x :: after ∧
      (∀ u ∈ before, ∃ w, f u = .ok w) ∧ f x = .error e := by
  induction xs with
  | nil => simp [pure, Except.pure]
  | cons x xs ih =>
    simp only [List.mapM_cons, bind_eq_error_iff, ih]
    constructor
    · intro given
      rcases given with head | ⟨y, head, ⟨before, u, after, rfl, passed, failed⟩ | ⟨_, _, made⟩⟩
      · exact ⟨[], x, xs, rfl, by simp, head⟩
      · exact ⟨x :: before, u, after, rfl, List.forall_mem_cons.2 ⟨⟨y, head⟩, passed⟩, failed⟩
      · cases made
    · intro given
      obtain ⟨before, u, after, parts, passed, failed⟩ := given
      cases before with
      | nil =>
        cases parts
        exact .inl failed
      | cons first before =>
        cases parts
        obtain ⟨⟨y, head⟩, passed⟩ := List.forall_mem_cons.1 passed
        exact .inr ⟨y, head, .inl ⟨before, u, after, rfl, passed, failed⟩⟩

theorem exists_of_mem_right {R : α → β → Prop} {xs : List α} {ys : List β}
    (related : List.Forall₂ R xs ys) {y : β} (listed : y ∈ ys) : ∃ x ∈ xs, R x y := by
  induction related with
  | nil => cases listed
  | @cons x _ xs _ first _ ih =>
    rcases List.mem_cons.1 listed with rfl | later
    · exact ⟨x, List.mem_cons_self, first⟩
    · obtain ⟨x', member, second⟩ := ih later
      exact ⟨x', List.mem_cons_of_mem x member, second⟩

theorem exists_of_mem_left {R : α → β → Prop} {xs : List α} {ys : List β}
    (related : List.Forall₂ R xs ys) {x : α} (listed : x ∈ xs) : ∃ y ∈ ys, R x y :=
  exists_of_mem_right (List.Forall₂.flip related) listed

end Criteria
