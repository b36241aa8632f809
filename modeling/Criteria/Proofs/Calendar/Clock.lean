import Criteria.Proofs.Calendar.Reading

set_option autoImplicit false

namespace Criteria.Calendar

structure Clock where
  hour : Option Nat
  minute : Option Nat
  second : Option Nat
deriving DecidableEq

namespace Clock

structure InRange (c : Clock) : Prop where
  hour_le : ∀ hour ∈ c.hour, hour ≤ 23
  minute_le : ∀ minute ∈ c.minute, minute ≤ 59
  second_le : ∀ second ∈ c.second, second ≤ 60

structure Shows (c : Clock) (time : TimeOfDay) : Prop where
  hour_eq : c.hour = some time.hour
  minute_eq : c.minute = some time.minute
  second_eq : c.second.getD 0 = time.shownSecond

variable {c : Clock} {time : TimeOfDay}

theorem Shows.inRange (shows : c.Shows time) : c.InRange where
  hour_le hour told := by
    cases shows.hour_eq.symm.trans told
    exact Nat.le_of_lt_succ time.hour_lt
  minute_le minute told := by
    cases shows.minute_eq.symm.trans told
    exact Nat.le_of_lt_succ time.minute_lt
  second_le second told := by
    have shown : second = time.shownSecond := by
      rw [← shows.second_eq, Option.mem_def.1 told, Option.getD_some]
    exact shown ▸ time.shownSecond_le

end Clock

/-- What calendar libraries agree on about the time of day. A date and time needs an hour and a
minute, and a second that is missing is 0. A date alone is read only if every item is, in its range,
but the time is not looked at. -/
structure FormatReader.TellsTime (reader : FormatReader)
    (clock? : String → List Char → Option Clock) (hasHour hasMinute : String → Prop) : Prop where
  dateTime_shows : ∀ {format s t}, reader.dateTime? format s = some t →
    ∃ clock, clock? format s = some clock ∧ clock.Shows t.time
  date_inRange : ∀ {format s date}, reader.date? format s = some date →
    ∃ clock, clock? format s = some clock ∧ clock.InRange
  hour_iff : ∀ {format s clock}, clock? format s = some clock →
    (clock.hour.isSome ↔ hasHour format)
  minute_iff : ∀ {format s clock}, clock? format s = some clock →
    (clock.minute.isSome ↔ hasMinute format)

namespace DateReading

def clock (r : DateReading) : Clock :=
  ⟨r.hour, r.minute, r.second⟩

theorem InRange.clock {r : DateReading} (inRange : r.InRange) : r.clock.InRange where
  hour_le hour told := by
    have admits : DatePart.hour.Admits hour :=
      inRange _ _ (congrArg (Option.map Int.ofNat) told)
    simp only [DatePart.Admits] at admits
    omega
  minute_le minute told := by
    have admits : DatePart.minute.Admits minute :=
      inRange _ _ (congrArg (Option.map Int.ofNat) told)
    simp only [DatePart.Admits] at admits
    omega
  second_le second told := by
    have admits : DatePart.second.Admits second :=
      inRange _ _ (congrArg (Option.map Int.ofNat) told)
    simp only [DatePart.Admits] at admits
    omega

end DateReading

namespace FormatReader

def numericClock? (format : String) (s : List Char) : Option Clock :=
  (reading? format s).map DateReading.clock

def HasItem (part : DatePart) (format : String) : Prop :=
  .number part ∈ FormatItem.ofFormat format.toList

theorem tellsTime_numeric :
    numeric.TellsTime numericClock? (HasItem .hour) (HasItem .minute) where
  dateTime_shows made := by
    obtain ⟨r, read, made⟩ := Option.bind_eq_some_iff.1 made
    obtain ⟨hour, minute, second, -⟩ :=
      DateReading.time?_eq_some_iff.1 (DateReading.dateTime?_eq_some_iff.1 made).2
    exact ⟨r.clock, by rw [numericClock?, read]; rfl, hour, minute, second⟩
  date_inRange made := by
    obtain ⟨r, read, -⟩ := Option.bind_eq_some_iff.1 made
    exact ⟨r.clock, by rw [numericClock?, read]; rfl, (reading?_told read).1.clock⟩
  hour_iff told := by
    obtain ⟨r, read, rfl⟩ := Option.map_eq_some_iff.1 told
    rw [HasItem, ← (reading?_told read).2, DateReading.get?, Option.isSome_map]
    rfl
  minute_iff told := by
    obtain ⟨r, read, rfl⟩ := Option.map_eq_some_iff.1 told
    rw [HasItem, ← (reading?_told read).2, DateReading.get?, Option.isSome_map]
    rfl

end FormatReader

end Criteria.Calendar
