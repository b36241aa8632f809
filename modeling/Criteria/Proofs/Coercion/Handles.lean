import Criteria.Coercion.Shared

set_option autoImplicit false

namespace Criteria

namespace Shared

variable {α ω : Type}

inductive Use (ω : Type) where
  | clone (handle : Nat)
  | through (handle : Nat) (op : ω)

def use (act : α → ω → α) (s : Shared α) : Use ω → Shared α
  | .clone handle => if handle < s.handles then s.clone.2 else s
  | .through handle op => s.update handle fun x => act x op

def made (handles : Nat) : List (Use ω) → List ω
  | [] => []
  | .clone handle :: uses => made (if handle < handles then handles + 1 else handles) uses
  | .through handle op :: uses =>
    if handle < handles then op :: made handles uses else made handles uses

theorem get?_issued (s : Shared α) {handle : Nat} (issued : handle < s.handles) :
    s.get? handle = some s.content :=
  if_pos issued

theorem content_foldl_use (act : α → ω → α) (s : Shared α) (uses : List (Use ω)) :
    (uses.foldl (use act) s).content = (made s.handles uses).foldl act s.content := by
  induction uses generalizing s with
  | nil => rfl
  | cons u uses ih =>
    rw [List.foldl_cons, ih]
    cases u with
    | clone handle =>
      by_cases issued : handle < s.handles
      · simp only [use, made, issued, if_true, clone]
      · simp only [use, made, issued, if_false]
    | through handle op =>
      by_cases issued : handle < s.handles
      · simp only [use, update, made, issued, if_true, List.foldl_cons]
      · simp only [use, update, made, issued, if_false]

end Shared

end Criteria
