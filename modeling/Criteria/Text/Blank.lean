import Criteria.Text.Ranges

set_option autoImplicit false

namespace Criteria.Text

/-- The characters with the Unicode property White_Space. -/
def blankRanges : List (Nat × Nat) :=
  [(0x0009, 0x000D), (0x0020, 0x0020), (0x0085, 0x0085), (0x00A0, 0x00A0), (0x1680, 0x1680),
    (0x2000, 0x200A), (0x2028, 0x2029), (0x202F, 0x202F), (0x205F, 0x205F), (0x3000, 0x3000)]

def isBlank (c : Char) : Bool :=
  inRanges blankRanges c

def skipBlanks (s : List Char) : List Char :=
  s.dropWhile isBlank

def trim (s : List Char) : List Char :=
  (skipBlanks (skipBlanks s).reverse).reverse

def allBlank (s : List Char) : Bool :=
  s.all isBlank

theorem allBlank_skipBlanks (s : List Char) : allBlank (skipBlanks s) = allBlank s := by
  induction s with
  | nil => rfl
  | cons c rest ih =>
    by_cases h : isBlank c = true
    · simp_all [skipBlanks, allBlank]
    · simp [skipBlanks, h]

theorem skipBlanks_eq_nil_iff {s : List Char} : skipBlanks s = [] ↔ allBlank s = true := by
  induction s with
  | nil => simp [skipBlanks, allBlank]
  | cons c rest ih =>
    by_cases h : isBlank c = true
    · simp_all [skipBlanks, allBlank]
    · simp [skipBlanks, allBlank, h]

end Criteria.Text
