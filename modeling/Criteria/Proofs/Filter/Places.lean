import Criteria.Filter.Position

set_option autoImplicit false

namespace Criteria.Position

variable {p q r : Position}

theorem advance_cons (p : Position) (c : Char) (s : List Char) :
    p.advance (c :: s) = (p.step c).advance s :=
  rfl

def behind (s : List Char) : Position :=
  ⟨1 + s.count '\n', (s.reverse.takeWhile (· != '\n')).length⟩

theorem behind_concat (s : List Char) (c : Char) : behind (s ++ [c]) = (behind s).step c := by
  by_cases breaks : c = '\n'
  · simp [behind, step, breaks, Nat.add_assoc]
  · simp [behind, step, breaks]

theorem advance_behind (before s : List Char) :
    (behind before).advance s = behind (before ++ s) := by
  induction s generalizing before with
  | nil => simp
  | cons c s ih =>
    rw [advance_cons, ← behind_concat, ih, List.append_assoc, List.singleton_append]

def Before (p q : Position) : Prop :=
  p.line < q.line ∨ p.line = q.line ∧ p.column < q.column

theorem Before.trans (first : p.Before q) (second : q.Before r) : p.Before r := by
  unfold Before at first second ⊢
  omega

theorem before_step (p : Position) (c : Char) : p.Before (p.step c) := by
  unfold Before step
  split
  · exact .inl (Nat.lt_succ_self p.line)
  · exact .inr ⟨rfl, Nat.lt_succ_self p.column⟩

theorem before_advance_cons (p : Position) (c : Char) (s : List Char) :
    p.Before (p.advance (c :: s)) := by
  induction s generalizing p c with
  | nil => exact before_step p c
  | cons d s ih => exact (before_step p c).trans (ih (p.step c) d)

end Criteria.Position
