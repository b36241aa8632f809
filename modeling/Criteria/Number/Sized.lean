import Criteria.Number.Numeral

set_option autoImplicit false

namespace Criteria

-- Powers are the core library's, whichever instances are in scope besides.
attribute [local instance (high)] instPowNat

inductive IntWidth where
  | byte
  | short
  | int
  | long
deriving DecidableEq, Repr

namespace IntWidth

def bits : IntWidth → Nat
  | byte => 8
  | short => 16
  | int => 32
  | long => 64

def Holds (w : IntWidth) (n : Int) : Prop :=
  -(2 ^ (w.bits - 1)) ≤ n ∧ n < 2 ^ (w.bits - 1)

instance (w : IntWidth) (n : Int) : Decidable (w.Holds n) :=
  inferInstanceAs (Decidable (_ ∧ _))

end IntWidth

structure SizedInt where
  width : IntWidth
  value : Int
  holds : width.Holds value
deriving DecidableEq

namespace SizedInt

def ofInt? (w : IntWidth) (n : Int) : Option SizedInt :=
  if h : w.Holds n then some ⟨w, n, h⟩ else none

def text (n : SizedInt) : List Char :=
  Numeral.ofInt n.value

def read? (w : IntWidth) (s : List Char) : Option SizedInt :=
  (Numeral.readInt? s).bind (ofInt? w)

theorem read?_text (w : IntWidth) (n : SizedInt) : read? w n.text = ofInt? w n.value := by
  simp [read?, text, Numeral.readInt?_ofInt]

theorem ofInt?_value (n : SizedInt) : ofInt? n.width n.value = some n := by
  simp [ofInt?, n.holds]

end SizedInt

end Criteria
