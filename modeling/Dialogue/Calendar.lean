import Dialogue.Text.Blank
import Dialogue.Decimal.Numeral

/-! # Calendar

Instants are nanoseconds since the first of January 1970, midnight in UTC; what is stored of them
are whole milliseconds. A local clock is ahead of UTC by a number of minutes, fewer than a day's in
either direction. Days are numbered from that date on, and years follow the Gregorian rule in both
directions.

* `Instant.millis_ofMillis`: the milliseconds of an instant that is given by them. -/

namespace Dialogue

/-- Milliseconds since the beginning of 1970. -/
abbrev Millis := Int

/-- An instant, by the nanoseconds since the beginning of 1970. -/
structure Instant where
  nanos : Int
deriving DecidableEq, Repr

namespace Instant

/-- The milliseconds that are over. -/
def millis (t : Instant) : Millis := t.nanos.fdiv 1000000

/-- The instant at which a millisecond begins. -/
def ofMillis (m : Millis) : Instant := ⟨m * 1000000⟩

@[simp]
theorem millis_ofMillis (m : Millis) : (ofMillis m).millis = m :=
  Int.mul_fdiv_cancel m (by decide)

end Instant

/-- The days of the week. -/
inductive Weekday where
  | monday | tuesday | wednesday | thursday | friday | saturday | sunday
deriving DecidableEq, Repr

namespace Weekday

/-- The day before. -/
def previous : Weekday → Weekday
  | monday => sunday
  | tuesday => monday
  | wednesday => tuesday
  | thursday => wednesday
  | friday => thursday
  | saturday => friday
  | sunday => saturday

/-- The name in three letters. -/
def abbreviation : Weekday → String
  | monday => "Mon"
  | tuesday => "Tue"
  | wednesday => "Wed"
  | thursday => "Thu"
  | friday => "Fri"
  | saturday => "Sat"
  | sunday => "Sun"

end Weekday

/-- A time of day with whole minutes. -/
structure ClockTime where
  hour : Nat
  minute : Nat
deriving DecidableEq, Repr

namespace ClockTime

/-- The nanoseconds from midnight on. -/
def nanos (t : ClockTime) : Nat := (t.hour * 60 + t.minute) * 60000000000

/-- One or two digits at the front, blanks before them allowed. -/
def number? (cs : List Char) : Option (Nat × List Char) :=
  match Text.trimStartChars cs with
  | a :: b :: rest =>
    if a.isDigit && b.isDigit then some (Decimal.digitsValue [a, b], rest)
    else if a.isDigit then some (Decimal.digitsValue [a], b :: rest)
    else none
  | [a] => if a.isDigit then some (Decimal.digitsValue [a], []) else none
  | [] => none

/-- A time of day of 24 hours, hours and minutes with a colon between them. -/
def ofText? (s : String) : Option ClockTime := do
  let (hour, rest) ← number? (Text.trimChars s.toList)
  let ':' :: rest := rest | none
  let (minute, []) ← number? rest | none
  if hour < 24 ∧ minute < 60 then some ⟨hour, minute⟩ else none

end ClockTime

/-- A date by its number among the days since the beginning of 1970, and the time of that day. -/
structure LocalTime where
  /-- The number of the day. -/
  day : Int
  /-- Nanoseconds since midnight. -/
  time : Nat
  /-- The minutes that the clock is ahead of UTC. -/
  offset : Int
deriving DecidableEq, Repr

/-- The nanoseconds of a day. -/
def dayNanos : Nat := 86400000000000

/-- The offset to use: one that is a day or more in either direction stands for none. -/
def usableOffset (minutes : Int) : Int :=
  if -1440 < minutes ∧ minutes < 1440 then minutes else 0

namespace LocalTime

/-- What a clock shows that is ahead of UTC by so many minutes. -/
def ofInstant (t : Instant) (offset : Int) : LocalTime :=
  let offset := usableOffset offset
  let shown := t.nanos + offset * 60000000000
  ⟨shown.fdiv dayNanos, (shown.fmod dayNanos).toNat, offset⟩

/-- The weekday of a day; day zero was a Thursday. -/
def weekdayOf (day : Int) : Weekday :=
  match (day + 3).fmod 7 with
  | 0 => .monday
  | 1 => .tuesday
  | 2 => .wednesday
  | 3 => .thursday
  | 4 => .friday
  | 5 => .saturday
  | _ => .sunday

/-- The weekday. -/
def weekday (t : LocalTime) : Weekday := weekdayOf t.day

end LocalTime

/-- A date of the Gregorian calendar. -/
structure Date where
  year : Int
  month : Nat
  day : Nat
deriving DecidableEq, Repr

namespace Date

/-- The date of a day by its number. Years are counted from March on, in cycles of 400. -/
def ofDay (n : Int) : Date :=
  let z := n + 719468
  let era := z.fdiv 146097
  let dayOfEra := (z.fmod 146097).toNat
  let yearOfEra := (dayOfEra - dayOfEra / 1460 + dayOfEra / 36524 - dayOfEra / 146096) / 365
  let dayOfYear := dayOfEra - (365 * yearOfEra + yearOfEra / 4 - yearOfEra / 100)
  let shifted := (5 * dayOfYear + 2) / 153
  let month := if shifted < 10 then shifted + 3 else shifted - 9
  let year : Int := yearOfEra + era * 400
  ⟨if month ≤ 2 then year + 1 else year, month, dayOfYear - (153 * shifted + 2) / 5 + 1⟩

/-- The number of the day of a date. -/
def toDay (d : Date) : Int :=
  let year := if d.month ≤ 2 then d.year - 1 else d.year
  let era := year.fdiv 400
  let yearOfEra := (year.fmod 400).toNat
  let shifted := if 2 < d.month then d.month - 3 else d.month + 9
  let dayOfYear := (153 * shifted + 2) / 5 + d.day - 1
  let dayOfEra := yearOfEra * 365 + yearOfEra / 4 - yearOfEra / 100 + dayOfYear
  era * 146097 + dayOfEra - 719468

end Date

/-! ### Text -/

/-- The number in at least `width` digits. -/
def padded (width n : Nat) : String :=
  let ds := Nat.toDigits 10 n
  String.ofList (List.replicate (width - ds.length) '0' ++ ds)

namespace LocalTime

/-- A year in four digits; outside of them it carries a sign. -/
def yearText (y : Int) : String :=
  if 0 ≤ y ∧ y ≤ 9999 then padded 4 y.natAbs
  else (if y < 0 then "-" else "+") ++ padded 4 y.natAbs

/-- The offset as hours and minutes with a sign. -/
def offsetText (minutes : Int) : String :=
  (if minutes < 0 then "-" else "+") ++ padded 2 (minutes.natAbs / 60) ++ ":" ++
    padded 2 (minutes.natAbs % 60)

/-- A part of a second, given in nanoseconds, with three, six or nine digits behind a point. It is
written only when there is any. -/
def fractionText (nanos : Nat) : String :=
  if nanos = 0 then ""
  else if nanos % 1000000 = 0 then "." ++ padded 3 (nanos / 1000000)
  else if nanos % 1000 = 0 then "." ++ padded 6 (nanos / 1000)
  else "." ++ padded 9 nanos

/-- Date, time and offset. -/
def text (t : LocalTime) : String :=
  let date := Date.ofDay t.day
  let seconds := t.time / 1000000000
  yearText date.year ++ "-" ++ padded 2 date.month ++ "-" ++ padded 2 date.day ++ "T" ++
    padded 2 (seconds / 3600) ++ ":" ++ padded 2 (seconds / 60 % 60) ++ ":" ++
    padded 2 (seconds % 60) ++ fractionText (t.time % 1000000000) ++ offsetText t.offset

end LocalTime

/-- The number that a text of digits writes. -/
def digits? (cs : List Char) : Option Nat :=
  if cs.isEmpty || !cs.all Char.isDigit then none else some (Decimal.digitsValue cs)

/-- The instant of a date and time in UTC, written as `2024-03-04T10:00:00` with up to nine further
digits behind a point. -/
def Instant.ofText? (s : String) : Option Instant := do
  let cs := s.toList
  let year ← digits? (cs.take 4)
  let '-' :: cs := cs.drop 4 | none
  let month ← digits? (cs.take 2)
  let '-' :: cs := cs.drop 2 | none
  let day ← digits? (cs.take 2)
  let 'T' :: cs := cs.drop 2 | none
  let hour ← digits? (cs.take 2)
  let ':' :: cs := cs.drop 2 | none
  let minute ← digits? (cs.take 2)
  let ':' :: cs := cs.drop 2 | none
  let second ← digits? (cs.take 2)
  let fraction ← match cs.drop 2 with
    | [] => some 0
    | '.' :: ds => if ds.length ≤ 9 then (digits? ds).map (· * Nat.pow 10 (9 - ds.length)) else none
    | _ => none
  let time : Nat := ((hour * 60 + minute) * 60 + second) * 1000000000 + fraction
  return ⟨Date.toDay ⟨year, month, day⟩ * dayNanos + time⟩

end Dialogue
