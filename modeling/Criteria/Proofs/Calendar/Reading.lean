import Criteria.Calendar.DateFormat

set_option autoImplicit false

namespace Criteria.Calendar

namespace DatePart

def Admits : DatePart → Int → Prop
  | year, _ => True
  | month, n => 1 ≤ n ∧ n ≤ 12
  | day, n => 1 ≤ n ∧ n ≤ 31
  | hour, n => 0 ≤ n ∧ n ≤ 23
  | minute, n => 0 ≤ n ∧ n ≤ 59
  | second, n => 0 ≤ n ∧ n ≤ 60

end DatePart

namespace DateReading

def get? (r : DateReading) : DatePart → Option Int
  | .year => r.year
  | .month => r.month.map Int.ofNat
  | .day => r.day.map Int.ofNat
  | .hour => r.hour.map Int.ofNat
  | .minute => r.minute.map Int.ofNat
  | .second => r.second.map Int.ofNat

def put (r : DateReading) (part : DatePart) (n : Int) : DateReading :=
  match part with
  | .year => { r with year := some n }
  | .month => { r with month := some n.toNat }
  | .day => { r with day := some n.toNat }
  | .hour => { r with hour := some n.toNat }
  | .minute => { r with minute := some n.toNat }
  | .second => { r with second := some n.toNat }

variable {r r' : DateReading} {part other : DatePart} {n : Int}

theorem get?_put (nonneg : part ≠ .year → 0 ≤ n) :
    (r.put part n).get? other = if other = part then some n else r.get? other := by
  have cast : part ≠ .year → (n.toNat : Int) = n := fun short => Int.toNat_of_nonneg (nonneg short)
  cases part <;> cases other <;> simp_all [put, get?]

theorem agrees_iff {α : Type} [DecidableEq α] {old : Option α} {new : α} :
    agrees old new = true ↔ ∀ x ∈ old, x = new := by
  cases old <;> simp [agrees]

theorem agrees_ofNat_iff {old : Option Nat} {k : Nat} :
    agrees old k = true ↔ ∀ x ∈ old.map Int.ofNat, x = (k : Int) := by
  rw [agrees_iff]
  cases old with
  | none => simp
  | some n =>
    simp only [Option.map_some, Option.mem_def, Option.some.injEq, forall_eq',
      Int.ofNat_eq_natCast, Int.ofNat_inj]

theorem set?_eq_some_iff (nonneg : part ≠ .year → 0 ≤ n) :
    r.set? part n = some r' ↔
      part.Admits n ∧ (∀ old ∈ r.get? part, old = n) ∧ r' = r.put part n := by
  cases part with
  | year =>
    simp only [set?, agrees_iff, DatePart.Admits, true_and, Option.ite_none_right_eq_some,
      Option.some.injEq]
    exact and_congr Iff.rfl eq_comm
  | month | day | hour | minute | second =>
    obtain ⟨k, rfl⟩ := Int.eq_ofNat_of_zero_le (nonneg (by decide))
    simp only [set?, get?, DatePart.Admits, Int.toNat_natCast, Bool.and_eq_true, decide_eq_true_eq,
      agrees_ofNat_iff, Option.ite_none_right_eq_some, Option.some.injEq]
    rw [and_assoc]
    exact and_congr (by omega) (and_congr Iff.rfl eq_comm)

def InRange (r : DateReading) : Prop :=
  ∀ part, ∀ n ∈ r.get? part, part.Admits n

theorem InRange.put (inRange : r.InRange) (nonneg : part ≠ .year → 0 ≤ n)
    (admits : part.Admits n) : (r.put part n).InRange := by
  intro other m told
  rw [get?_put nonneg] at told
  split at told
  · next same =>
    cases same
    cases told
    exact admits
  · exact inRange other m told

end DateReading

theorem readPart?_nonneg {part : DatePart} {s rest : List Char} {n : Int}
    (read : readPart? part s = some (n, rest)) (short : part ≠ .year) : 0 ≤ n := by
  simp only [readPart?, short, if_false, Option.map_eq_some_iff] at read
  obtain ⟨⟨k, rest'⟩, -, made⟩ := read
  cases made
  exact Int.natCast_nonneg k

-- The invariant is that what is recorded is in range; each number item adds its own part.
theorem matchItems?_told {items : List FormatItem} {s : List Char} {r r' : DateReading}
    (read : matchItems? items s r = some r') (inRange : r.InRange) :
    r'.InRange ∧
      ∀ part, (r'.get? part).isSome ↔ (r.get? part).isSome ∨ .number part ∈ items := by
  induction items generalizing s r with
  | nil =>
    cases s with
    | nil =>
      cases read
      exact ⟨inRange, by simp⟩
    | cons c rest => cases read
  | cons item items ih =>
    cases item with
    | literal c =>
      cases s with
      | nil => simp [matchItems?] at read
      | cons d rest =>
        rw [matchItems?, Option.ite_none_right_eq_some] at read
        simpa using ih read.2 inRange
    | blanks =>
      rw [matchItems?] at read
      simpa using ih read inRange
    | number own =>
      rw [matchItems?] at read
      split at read
      · cases read
      · next n rest number =>
        split at read
        · cases read
        · next r₁ set =>
          have nonneg : own ≠ .year → 0 ≤ n := readPart?_nonneg number
          obtain ⟨admits, -, rfl⟩ := (DateReading.set?_eq_some_iff nonneg).1 set
          obtain ⟨inRange', told⟩ := ih read (inRange.put nonneg admits)
          refine ⟨inRange', fun part => ?_⟩
          rw [told, DateReading.get?_put nonneg, List.mem_cons, FormatItem.number.injEq]
          by_cases same : part = own <;> simp [same]
    | unknown => simp [matchItems?] at read

theorem reading?_told {format : String} {s : List Char} {r : DateReading}
    (read : reading? format s = some r) :
    r.InRange ∧
      ∀ part, (r.get? part).isSome ↔ .number part ∈ FormatItem.ofFormat format.toList := by
  have fresh (part : DatePart) : DateReading.get? {} part = none := by cases part <;> rfl
  have start : DateReading.InRange {} := fun part n told => by simp [fresh] at told
  simpa [fresh] using matchItems?_told read start

namespace TimeOfDay

def Whole (t : TimeOfDay) : Prop :=
  t.nanosecond = 0 ∨ t.nanosecond = 1000000000

instance (t : TimeOfDay) : Decidable t.Whole :=
  inferInstanceAs (Decidable (_ ∨ _))

theorem shownSecond_le (t : TimeOfDay) : t.shownSecond ≤ 60 := by
  have := t.second_lt
  unfold shownSecond
  split <;> omega

theorem of?_eq_some_iff {hour minute second nanosecond : Nat} {t : TimeOfDay} :
    of? hour minute second nanosecond = some t ↔
      t.hour = hour ∧ t.minute = minute ∧ t.second = second ∧ t.nanosecond = nanosecond := by
  constructor
  · intro made
    simp only [of?, Option.dite_none_right_eq_some] at made
    obtain ⟨valid, made⟩ := made
    cases made
    exact ⟨rfl, rfl, rfl, rfl⟩
  · rintro ⟨rfl, rfl, rfl, rfl⟩
    exact of?_self t

end TimeOfDay

namespace DateReading

variable {r : DateReading}

theorem time?_eq_some_iff {time : TimeOfDay} :
    r.time? = some time ↔ r.hour = some time.hour ∧ r.minute = some time.minute ∧
      r.second.getD 0 = time.shownSecond ∧ time.Whole := by
  have carried := time.nanosecond_lt
  have second := time.second_lt
  unfold time?
  split
  · next hour minute told told' =>
    simp only [told, told', Option.some.injEq]
    split
    · next leap =>
      rw [TimeOfDay.of?_eq_some_iff, leap]
      unfold TimeOfDay.shownSecond TimeOfDay.Whole
      split <;> split at carried <;> omega
    · next other =>
      have other : r.second.getD 0 ≠ 60 := other
      rw [TimeOfDay.of?_eq_some_iff]
      unfold TimeOfDay.shownSecond TimeOfDay.Whole
      split <;> split at carried <;> omega
  · next untold =>
    constructor
    · intro made
      cases made
    · rintro ⟨told, told', -⟩
      exact absurd told' (untold _ _ told)

theorem dateTime?_eq_some_iff {t : DateTime} :
    r.dateTime? = some t ↔ r.date? = some t.date ∧ r.time? = some t.time := by
  unfold dateTime?
  split
  · next date time dated timed =>
    simp only [dated, timed, Option.some.injEq]
    constructor
    · rintro rfl
      exact ⟨rfl, rfl⟩
    · rintro ⟨rfl, rfl⟩
      rfl
  · next missing =>
    constructor
    · intro made
      cases made
    · rintro ⟨dated, timed⟩
      exact absurd timed (missing _ _ dated)

end DateReading

end Criteria.Calendar
