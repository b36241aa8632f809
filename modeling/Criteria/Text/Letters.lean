set_option autoImplicit false

namespace Criteria.Text

def lower (s : List Char) : List Char :=
  s.map Char.toLower

def sameLetters (a b : List Char) : Bool :=
  lower a == lower b

theorem sameLetters_eq_true_iff {a b : List Char} :
    sameLetters a b = true ↔ lower a = lower b := by
  simp [sameLetters]

end Criteria.Text
