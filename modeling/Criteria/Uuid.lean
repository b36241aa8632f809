import Criteria.Text.Letters

set_option autoImplicit false

namespace Criteria

structure Uuid where
  digits : List (Fin 16)
  length_eq : digits.length = 32
deriving DecidableEq

namespace Uuid

def hexDigit? (c : Char) : Option (Fin 16) :=
  if '0' ≤ c ∧ c ≤ '9' then some (Fin.ofNat 16 (c.toNat - '0'.toNat))
  else if 'a' ≤ c ∧ c ≤ 'f' then some (Fin.ofNat 16 (c.toNat - 'a'.toNat + 10))
  else if 'A' ≤ c ∧ c ≤ 'F' then some (Fin.ofNat 16 (c.toNat - 'A'.toNat + 10))
  else none

def hexChar (d : Fin 16) : Char :=
  Nat.digitChar d

def ofDigits? (digits : List (Fin 16)) : Option Uuid :=
  if h : digits.length = 32 then some ⟨digits, h⟩ else none

def hyphenate (s : List Char) : List Char :=
  s.take 8 ++ '-' :: (s.drop 8).take 4 ++ '-' :: (s.drop 12).take 4 ++
    '-' :: (s.drop 16).take 4 ++ '-' :: s.drop 20

def text (u : Uuid) : List Char :=
  hyphenate (u.digits.map hexChar)

def readSimple? (s : List Char) : Option Uuid :=
  (s.mapM hexDigit?).bind ofDigits?

def readHyphenated? (s : List Char) : Option Uuid :=
  let run := s.filter (· != '-')
  if hyphenate run = s then readSimple? run else none

def read? (s : List Char) : Option Uuid :=
  if s.length = 32 then
    readSimple? s
  else if s.length = 36 then
    readHyphenated? s
  else if s.length = 38 then
    if s.head? = some '\x7b' ∧ s.getLast? = some '\x7d' then
      readHyphenated? (s.drop 1).dropLast
    else
      none
  else if s.length = 45 then
    if Text.sameLetters (s.take 9) "urn:uuid:".toList then readHyphenated? (s.drop 9) else none
  else
    none

end Uuid

end Criteria
