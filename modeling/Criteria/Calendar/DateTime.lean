import Criteria.Calendar.Date

set_option autoImplicit false

namespace Criteria.Calendar

structure TimeOfDay where
  hour : Nat
  minute : Nat
  second : Nat
  nanosecond : Nat
  hour_lt : hour < 24
  minute_lt : minute < 60
  second_lt : second < 60
  nanosecond_lt : nanosecond < if second = 59 then 2000000000 else 1000000000
deriving DecidableEq

namespace TimeOfDay

def of? (hour minute second nanosecond : Nat) : Option TimeOfDay :=
  if h : (hour < 24 ∧ minute < 60 ∧ second < 60) ∧
      nanosecond < if second = 59 then 2000000000 else 1000000000 then
    some ⟨hour, minute, second, nanosecond, h.1.1, h.1.2.1, h.1.2.2, h.2⟩
  else
    none

theorem of?_self (t : TimeOfDay) : of? t.hour t.minute t.second t.nanosecond = some t := by
  simp [of?, t.hour_lt, t.minute_lt, t.second_lt, t.nanosecond_lt]

def midnight : TimeOfDay :=
  ⟨0, 0, 0, 0, by decide, by decide, by decide, by decide⟩

def shownSecond (t : TimeOfDay) : Nat :=
  if t.nanosecond < 1000000000 then t.second else t.second + 1

def text (t : TimeOfDay) : List Char :=
  Numeral.padded 2 t.hour ++ ':' :: Numeral.padded 2 t.minute ++
    ':' :: Numeral.padded 2 t.shownSecond

end TimeOfDay

structure DateTime where
  date : Date
  time : TimeOfDay
deriving DecidableEq

def DateTime.text (t : DateTime) : List Char :=
  t.date.text ++ 'T' :: t.time.text

end Criteria.Calendar
