import Criteria.Number.Ieee.Basic
import Criteria.Number.Sized
import Criteria.Text.Blank
import Criteria.Text.Letters
import Std.Data.TreeMap.Basic

set_option autoImplicit false

namespace Criteria

inductive TypeKey where
  | bool
  | int (width : IntWidth)
  | float (precision : Precision)
  | decimal
  | char
  | text
  | date
  | uuid
  | custom (name : String)
deriving DecidableEq, Repr

namespace TypeKey

def builtin : List TypeKey :=
  [bool, int .byte, int .short, int .int, int .long, float .single, float .double, decimal, char,
    text, date, uuid]

def name : TypeKey → String
  | bool => "boolean"
  | int .byte => "byte"
  | int .short => "short"
  | int .int => "int"
  | int .long => "long"
  | float .single => "float"
  | float .double => "double"
  | decimal => "decimal"
  | char => "char"
  | text => "string"
  | date => "date"
  | uuid => "uuid"
  | custom name => name

def isCustom : TypeKey → Bool
  | custom _ => true
  | _ => false

def spellings : List (String × TypeKey) :=
  [("boolean", bool), ("bool", bool), ("byte", int .byte), ("i8", int .byte),
    ("short", int .short), ("i16", int .short), ("int", int .int), ("integer", int .int),
    ("i32", int .int), ("long", int .long), ("i64", int .long), ("float", float .single),
    ("f32", float .single), ("double", float .double), ("f64", float .double),
    ("decimal", decimal), ("bigdecimal", decimal), ("char", char), ("character", char),
    ("string", text), ("text", text), ("date", date), ("datetime", date), ("uuid", uuid)]

/-- Blanks around a name and the case of its letters do not matter for the built-in types; the
name of a custom type keeps its case. -/
def ofName (s : String) : TypeKey :=
  let bare := Text.trim s.toList
  match spellings.lookup (String.ofList (Text.lower bare)) with
  | some key => key
  | none => custom (String.ofList bare)

def rank : TypeKey → Nat
  | bool => 0
  | int .byte => 1
  | int .short => 2
  | int .int => 3
  | int .long => 4
  | float .single => 5
  | float .double => 6
  | decimal => 7
  | char => 8
  | text => 9
  | date => 10
  | uuid => 11
  | custom _ => 12

def customName : TypeKey → String
  | custom name => name
  | _ => ""

theorem eq_of_rank_of_customName {a b : TypeKey} (h : a.rank = b.rank)
    (h' : a.customName = b.customName) : a = b := by
  cases a with
  | int w => cases w <;> cases b <;> simp_all [rank] <;> split at h <;> simp_all
  | float p => cases p <;> cases b <;> simp_all [rank] <;> split at h <;> simp_all
  | _ => cases b <;> simp_all [rank, customName] <;> split at h <;> simp_all

instance : Ord TypeKey :=
  ⟨compareLex (compareOn rank) (compareOn customName)⟩

instance : Std.TransOrd TypeKey :=
  inferInstanceAs (Std.TransCmp (compareLex (compareOn rank) (compareOn customName)))

instance : Std.LawfulEqOrd TypeKey where
  eq_of_compare {a b} h := by
    have h : (compareLex (compareOn rank) (compareOn customName)) a b = .eq := h
    simp only [compareLex, compareOn, Ordering.then_eq_eq, Std.compare_eq_iff_eq] at h
    exact eq_of_rank_of_customName h.1 h.2

end TypeKey

end Criteria
