import Criteria.Calendar.DateTime
import Criteria.Text.Blank

set_option autoImplicit false

namespace Criteria.Calendar

/-- How texts are read by a format: as a date and a time, or as a date alone. What formats there are
and what each of them reads is left to the calendar library in use. -/
class FormatReader where
  dateTime? : String → List Char → Option DateTime
  date? : String → List Char → Option Date
  unread_blank (format : String) {s : List Char} :
    Text.allBlank s = true → dateTime? format s = none ∧ date? format s = none

namespace FormatReader

variable {reader : FormatReader} {format : String} {s : List Char} {t : DateTime}

/-- A text that is no date and time by a format may still be a date, and is then its midnight. -/
def read? (reader : FormatReader) (format : String) (s : List Char) : Option DateTime :=
  (reader.dateTime? format s).or ((reader.date? format s).map fun date => ⟨date, .midnight⟩)

def readByAny? (reader : FormatReader) (formats : List String) (s : List Char) :
    Option DateTime :=
  formats.findSome? (reader.read? · s)

theorem read?_eq_some_iff :
    reader.read? format s = some t ↔
      reader.dateTime? format s = some t ∨
        reader.dateTime? format s = none ∧ reader.date? format s = some t.date ∧
          t.time = .midnight := by
  cases timed : reader.dateTime? format s with
  | some t' => simp [read?, timed]
  | none =>
    simp only [read?, timed, Option.none_or, Option.map_eq_some_iff]
    constructor
    · rintro ⟨date, dated, rfl⟩
      exact .inr ⟨trivial, dated, rfl⟩
    · rintro (made | ⟨-, dated, midnight⟩)
      · cases made
      · exact ⟨t.date, dated, by rw [← midnight]⟩

theorem not_blank_of_read? (read : reader.read? format s = some t) : Text.allBlank s = false := by
  cases blank : Text.allBlank s with
  | false => rfl
  | true =>
    obtain ⟨dateTime, date⟩ := reader.unread_blank format blank
    simp [read?, dateTime, date] at read

end FormatReader

end Criteria.Calendar
