import Criteria.Proofs.Calendar.Clock
import Criteria.Proofs.Coercion.Formats

set_option autoImplicit false

namespace Criteria

namespace DateFormats

open Calendar (Clock FormatReader)

/-- The earliest format that reads a text decides its time of day. If it reads a date and a time,
hour, minute and second are those that the text tells. If it only reads a date, whatever hour the
text tells has to be in range, but is dropped for that of midnight. So the hour is kept exactly if a
time is read too, or by chance, and a format without an hour or a minute makes midnight. -/
theorem time_of_accepted {d : DateFormats} {clock? : String → List Char → Option Clock}
    {hasHour hasMinute : String → Prop} (tells : d.reader.TellsTime clock? hasHour hasMinute)
    {text : String} {t : Calendar.DateTime} (accepted : d.parser (.text text) = .ok (.date t)) :
    ∃ format clock, EarliestReads d.reader d.formats format text.toList t ∧
      clock? format text.toList = some clock ∧ clock.InRange ∧
      (clock.hour.isSome ↔ hasHour format) ∧ (clock.minute.isSome ↔ hasMinute format) ∧
      (d.reader.dateTime? format text.toList = some t ∧ clock.Shows t.time ∨
        d.reader.dateTime? format text.toList = none ∧
          d.reader.date? format text.toList = some t.date ∧ t.time = .midnight) ∧
      (∀ hour, clock.hour = some hour →
        (t.time.hour = hour ↔ d.reader.dateTime? format text.toList ≠ none ∨ hour = 0)) ∧
      (¬ (hasHour format ∧ hasMinute format) → t.time = .midnight) := by
  obtain ⟨format, t', reads, made⟩ := parser_text_eq_ok_iff.1 accepted
  cases made
  rcases FormatReader.read?_eq_some_iff.1 reads.read?_eq with timed | ⟨untimed, dated, midnight⟩
  · obtain ⟨clock, told, shows⟩ := tells.dateTime_shows timed
    have hour_iff := tells.hour_iff told
    have minute_iff := tells.minute_iff told
    refine ⟨format, clock, reads, told, shows.inRange, hour_iff, minute_iff, .inl ⟨timed, shows⟩,
      fun hour told => ?kept, fun missing => ?complete⟩
    case kept =>
      cases shows.hour_eq.symm.trans told
      simp [timed]
    case complete =>
      have hour : hasHour format := hour_iff.1 (by simp [shows.hour_eq])
      have minute : hasMinute format := minute_iff.1 (by simp [shows.minute_eq])
      exact absurd ⟨hour, minute⟩ missing
  · obtain ⟨clock, told, inRange⟩ := tells.date_inRange dated
    refine ⟨format, clock, reads, told, inRange, tells.hour_iff told, tells.minute_iff told,
      .inr ⟨untimed, dated, midnight⟩, fun hour told => ?dropped, fun _ => midnight⟩
    have zero : t.time.hour = 0 := by rw [midnight]; rfl
    simp [untimed, zero, eq_comm]

def halfPastOne : Calendar.DateTime :=
  ⟨⟨2018, 1, 2, by decide, by decide, by decide, by decide⟩,
    ⟨13, 30, 1, 0, by decide, by decide, by decide, by decide⟩⟩

theorem halfPastOne_kept :
    FormatReader.numeric.TellsTime FormatReader.numericClock? (FormatReader.HasItem .hour)
      (FormatReader.HasItem .minute) ∧
    DateFormats.parser {} (.text "2018-01-02T13:30:01") = .ok (.date halfPastOne) ∧
    ∃ format clock, EarliestReads FormatReader.numeric Calendar.defaultFormats format
        "2018-01-02T13:30:01".toList halfPastOne ∧
      FormatReader.numericClock? format "2018-01-02T13:30:01".toList = some clock ∧
      clock.InRange ∧
      (clock.hour.isSome ↔ FormatReader.HasItem .hour format) ∧
      (clock.minute.isSome ↔ FormatReader.HasItem .minute format) ∧
      (FormatReader.numeric.dateTime? format "2018-01-02T13:30:01".toList = some halfPastOne ∧
          clock.Shows halfPastOne.time ∨
        FormatReader.numeric.dateTime? format "2018-01-02T13:30:01".toList = none ∧
          FormatReader.numeric.date? format "2018-01-02T13:30:01".toList = some halfPastOne.date ∧
          halfPastOne.time = .midnight) ∧
      (∀ hour, clock.hour = some hour →
        (halfPastOne.time.hour = hour ↔
          FormatReader.numeric.dateTime? format "2018-01-02T13:30:01".toList ≠ none ∨
            hour = 0)) ∧
      (¬ (FormatReader.HasItem .hour format ∧ FormatReader.HasItem .minute format) →
        halfPastOne.time = .midnight) := by
  have accepted :
      DateFormats.parser {} (.text "2018-01-02T13:30:01") = .ok (.date halfPastOne) := by
    have read : FormatReader.numeric.readByAny? Calendar.defaultFormats
        "2018-01-02T13:30:01".toList = some halfPastOne := by
      decide +kernel
    rw [parser_text, read]
  exact ⟨FormatReader.tellsTime_numeric, accepted,
    time_of_accepted FormatReader.tellsTime_numeric accepted⟩

theorem hour_alone_dropped :
    FormatReader.HasItem .hour "%Y-%m-%d %H" ∧
      FormatReader.numericClock? "%Y-%m-%d %H" "2018-01-02 13".toList =
        some ⟨some 13, none, none⟩ ∧
      DateFormats.parser ⟨["%Y-%m-%d %H"]⟩ (.text "2018-01-02 13") =
        .ok (.date ⟨halfPastOne.date, .midnight⟩) := by
  have read : FormatReader.numeric.readByAny? ["%Y-%m-%d %H"] "2018-01-02 13".toList =
      some ⟨halfPastOne.date, .midnight⟩ := by
    decide +kernel
  refine ⟨?_, by decide, ?_⟩
  · unfold FormatReader.HasItem
    decide
  · rw [parser_text, read]

end DateFormats

end Criteria
