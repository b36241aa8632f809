set_option autoImplicit false

namespace Criteria.Text

def quoteMark : Char := '\x27'

def doubled : List Char → List Char
  | [] => []
  | c :: rest => if c = quoteMark then c :: c :: doubled rest else c :: doubled rest

def enclosed (s : List Char) : List Char :=
  quoteMark :: s ++ [quoteMark]

def quoted (s : List Char) : List Char :=
  enclosed (doubled s)

theorem doubled_of_no_quote {s : List Char} (h : quoteMark ∉ s) : doubled s = s := by
  induction s with
  | nil => rfl
  | cons c rest ih =>
    have hc : c ≠ quoteMark := fun e => h (by simp [e])
    simp [doubled, hc, ih (fun m => h (List.mem_cons_of_mem _ m))]

end Criteria.Text
