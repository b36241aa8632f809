import Criteria.Calendar.FormatReader

set_option autoImplicit false

namespace Criteria.Calendar

inductive DatePart where
  | year
  | month
  | day
  | hour
  | minute
  | second
deriving DecidableEq, Repr

inductive FormatItem where
  | literal (c : Char)
  | blanks
  | number (part : DatePart)
  | unknown
deriving DecidableEq, Repr

namespace FormatItem

def ofSpecifier : Char → FormatItem
  | 'Y' => number .year
  | 'm' => number .month
  | 'd' => number .day
  | 'H' => number .hour
  | 'M' => number .minute
  | 'S' => number .second
  | '%' => literal '%'
  | _ => unknown

def ofFormat : List Char → List FormatItem
  | [] => []
  -- A sign at the end introduces nothing.
  | ['%'] => [unknown]
  | '%' :: c :: rest => ofSpecifier c :: ofFormat rest
  | c :: rest => (if Text.isBlank c then blanks else literal c) :: ofFormat rest

end FormatItem

structure DateReading where
  year : Option Int := none
  month : Option Nat := none
  day : Option Nat := none
  hour : Option Nat := none
  minute : Option Nat := none
  second : Option Nat := none
deriving DecidableEq, Repr

namespace DateReading

def agrees {α : Type} [DecidableEq α] (old : Option α) (new : α) : Bool :=
  old.all (· == new)

def set? (r : DateReading) (part : DatePart) (n : Int) : Option DateReading :=
  let k := n.toNat
  match part with
  | .year => if agrees r.year n then some { r with year := some n } else none
  | .month =>
    if 1 ≤ k && k ≤ 12 && agrees r.month k then some { r with month := some k } else none
  | .day => if 1 ≤ k && k ≤ 31 && agrees r.day k then some { r with day := some k } else none
  | .hour => if k ≤ 23 && agrees r.hour k then some { r with hour := some k } else none
  | .minute => if k ≤ 59 && agrees r.minute k then some { r with minute := some k } else none
  | .second => if k ≤ 60 && agrees r.second k then some { r with second := some k } else none

def date? (r : DateReading) : Option Date :=
  match r.year, r.month, r.day with
  | some year, some month, some day => Date.of? year month day
  | _, _, _ => none

def time? (r : DateReading) : Option TimeOfDay :=
  match r.hour, r.minute with
  | some hour, some minute =>
    match r.second.getD 0 with
    -- A leap second is the second before it, carried on.
    | 60 => TimeOfDay.of? hour minute 59 1000000000
    | second => TimeOfDay.of? hour minute second 0
  | _, _ => none

def dateTime? (r : DateReading) : Option DateTime :=
  match r.date?, r.time? with
  | some date, some time => some ⟨date, time⟩
  | _, _ => none

end DateReading

def readRun? (atMost : Nat) (s : List Char) : Option (Nat × List Char) :=
  match (s.take atMost).takeWhile Char.isDigit with
  | [] => none
  | run => some (Numeral.value run, s.drop run.length)

/-- Blanks before a number are skipped. A year has at most four digits or else a sign, all other
numbers have at most two digits. -/
def readPart? (part : DatePart) (s : List Char) : Option (Int × List Char) :=
  let s := Text.skipBlanks s
  if part = .year then
    match s with
    | '-' :: rest => (readRun? rest.length rest).map fun (n, rest) => (-(n : Int), rest)
    | '+' :: rest => (readRun? rest.length rest).map fun (n, rest) => ((n : Int), rest)
    | _ => (readRun? 4 s).map fun (n, rest) => ((n : Int), rest)
  else
    (readRun? 2 s).map fun (n, rest) => ((n : Int), rest)

def matchItems? : List FormatItem → List Char → DateReading → Option DateReading
  | [], [], r => some r
  | [], _ :: _, _ => none
  | .literal c :: items, s, r =>
    match s with
    | [] => none
    | d :: rest => if c = d then matchItems? items rest r else none
  | .blanks :: items, s, r => matchItems? items (Text.skipBlanks s) r
  | .number part :: items, s, r =>
    match readPart? part s with
    | none => none
    | some (n, rest) =>
      match r.set? part n with
      | none => none
      | some r => matchItems? items rest r
  | .unknown :: _, _, _ => none

theorem readPart?_blank {part : DatePart} {s : List Char} (blank : Text.allBlank s = true) :
    readPart? part s = none := by
  have nothing : Text.skipBlanks s = [] := Text.skipBlanks_eq_nil_iff.2 blank
  rw [readPart?, nothing]
  split <;> rfl

theorem matchItems?_blank {items : List FormatItem} {s : List Char} {r r' : DateReading}
    (blank : Text.allBlank s = true) (read : matchItems? items s r = some r') : r' = r := by
  induction items generalizing s with
  | nil =>
    cases s with
    | nil =>
      cases read
      rfl
    | cons c rest => cases read
  | cons item items ih =>
    cases item with
    | literal c =>
      cases s with
      | nil => simp [matchItems?] at read
      | cons d rest =>
        rw [matchItems?, Option.ite_none_right_eq_some] at read
        exact ih (Bool.and_eq_true_iff.1 blank).2 read.2
    | blanks =>
      rw [matchItems?] at read
      exact ih ((Text.allBlank_skipBlanks s).trans blank) read
    | number part => simp [matchItems?, readPart?_blank blank] at read
    | unknown => simp [matchItems?] at read

def reading? (format : String) (s : List Char) : Option DateReading :=
  matchItems? (FormatItem.ofFormat format.toList) s {}

theorem reading?_blank {format : String} {s : List Char} {r : DateReading}
    (blank : Text.allBlank s = true) (read : reading? format s = some r) : r = {} :=
  matchItems?_blank blank read

/-- Stands in for a calendar library where none is given. It reads formats of numbers, blanks and
literals; a format with another specifier, which a library may well know, reads nothing here. -/
instance FormatReader.numeric : FormatReader where
  dateTime? format s := (reading? format s).bind DateReading.dateTime?
  date? format s := (reading? format s).bind DateReading.date?
  unread_blank format s blank := by
    cases read : reading? format s with
    | none => exact ⟨rfl, rfl⟩
    | some r =>
      cases reading?_blank blank read
      exact ⟨rfl, rfl⟩

def defaultFormats : List String :=
  ["%Y-%m-%dT%H:%M:%S", "%Y-%m-%d"]

end Criteria.Calendar
