set_option autoImplicit false

namespace Criteria

structure Shared (α : Type) where
  content : α
  handles : Nat := 1

namespace Shared

variable {α : Type}

def clone (s : Shared α) : Nat × Shared α :=
  (s.handles, { s with handles := s.handles + 1 })

def get? (s : Shared α) (handle : Nat) : Option α :=
  if handle < s.handles then some s.content else none

def update (s : Shared α) (handle : Nat) (f : α → α) : Shared α :=
  if handle < s.handles then { s with content := f s.content } else s

end Shared

end Criteria
