import Criteria.Calendar.DateTime
import Criteria.Number.Decimal
import Criteria.Number.Ieee.Text
import Criteria.Uuid
import Criteria.Value.TypeKey

set_option autoImplicit false

namespace Criteria

open Calendar (DateTime Date TimeOfDay)

inductive Value where
  | null
  | bool (b : Bool)
  | int (n : SizedInt)
  | float (x : Ieee)
  | decimal (d : Decimal)
  | char (c : Char)
  | text (s : String)
  | date (t : DateTime)
  | uuid (u : Uuid)
  | list (items : List Value)

namespace Value

def key? : Value → Option TypeKey
  | bool _ => some .bool
  | int n => some (.int n.width)
  | float x => some (.float x.precision)
  | decimal _ => some .decimal
  | char _ => some .char
  | text _ => some .text
  | date _ => some .date
  | uuid _ => some .uuid
  | null => none
  | list _ => none

def satisfies (v : Value) (key : TypeKey) : Bool :=
  v.key? == some key

def isNull : Value → Bool
  | null => true
  | _ => false

def text? : Value → Option String
  | text s => some s
  | _ => none

def items? : Value → Option (List Value)
  | list items => some items
  | _ => none

def scalarText? : Value → Option (List Char)
  | bool b => some (if b then "true" else "false").toList
  | int n => some n.text
  | float x => some x.text
  | decimal d => some d.text
  | char c => some [c]
  | text s => some s.toList
  | date t => some t.text
  | uuid u => some u.text
  | null => none
  | list _ => none

mutual

/-- Equality of values of one type. Floating-point numbers are compared as numbers, so that NaN
differs from itself, and decimals without regard to their places. -/
def same : Value → Value → Bool
  | null, null => true
  | bool a, bool b => a == b
  | int a, int b => a == b
  | float a, float b => a.same b
  | decimal a, decimal b => a.same b
  | char a, char b => a == b
  | text a, text b => a == b
  | date a, date b => a == b
  | uuid a, uuid b => a == b
  | list a, list b => sameItems a b
  | _, _ => false

def sameItems : List Value → List Value → Bool
  | [], [] => true
  | a :: as, b :: bs => same a b && sameItems as bs
  | _, _ => false

end

instance : BEq Value :=
  ⟨same⟩

def ofDate (d : Date) : Value :=
  date ⟨d, .midnight⟩

def ofOption (v : Option Value) : Value :=
  v.getD null

theorem satisfies_iff {v : Value} {key : TypeKey} : v.satisfies key = true ↔ v.key? = some key := by
  simp [satisfies]

end Value

end Criteria
