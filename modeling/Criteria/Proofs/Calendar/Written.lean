import Criteria.Proofs.Calendar.Reading
import Criteria.Proofs.Number.Digits

set_option autoImplicit false

namespace Criteria.Calendar

-- Powers are the core library's, whichever instances are in scope besides.
attribute [local instance (high)] instPowNat

open Numeral (AllDigits)

theorem DateTime.text_eq (t : DateTime) : t.text =
    Date.yearText t.date.year ++ '-' :: (Numeral.padded 2 t.date.month ++
      '-' :: (Numeral.padded 2 t.date.day ++ 'T' :: (Numeral.padded 2 t.time.hour ++
        ':' :: (Numeral.padded 2 t.time.minute ++
          ':' :: Numeral.padded 2 t.time.shownSecond)))) := by
  simp [DateTime.text, Date.text, TimeOfDay.text]

def DateTime.reading (t : DateTime) : DateReading where
  year := some t.date.year
  month := some t.date.month
  day := some t.date.day
  hour := some t.time.hour
  minute := some t.time.minute
  second := some t.time.shownSecond

theorem DateTime.not_blank_text (t : DateTime) : Text.allBlank t.text = false :=
  Text.allBlank_eq_false (c := 'T') (by simp [t.text_eq]) (by decide)

end Criteria.Calendar
