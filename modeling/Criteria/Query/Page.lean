import Criteria.Error

set_option autoImplicit false

namespace Criteria

structure Page where
  limit : Option Nat := none
  offset : Nat := 0
deriving DecidableEq, Repr

def Page.checked (limit offset : Int) : Except FilterError Page :=
  if 0 ≤ limit ∧ 0 ≤ offset then .ok ⟨some limit.toNat, offset.toNat⟩
  else .error (.pagination limit offset)

end Criteria
