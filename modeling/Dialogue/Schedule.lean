import Dialogue.Calendar
import Dialogue.Failure
import Dialogue.Text.Lower

/-! # Schedules

Weekly opening hours. Each weekday may have a window from one time to another, both included, by
the local clock; a window that ends before it starts runs into the next day. Days are named in
English or Portuguese, in any case. The first entry that names a weekday is the one that counts. -/

namespace Dialogue

/-- The weekday of that name. -/
def Weekday.ofName? (name : String) : Option Weekday :=
  let name := Text.lower (Text.trim name)
  let names : List (Weekday × List String) :=
    [(.monday, ["monday", "mon", "segunda", "segunda-feira", "seg"]),
      (.tuesday, ["tuesday", "tue", "terca", "terça", "terça-feira", "terca-feira", "ter"]),
      (.wednesday, ["wednesday", "wed", "quarta", "quarta-feira", "qua"]),
      (.thursday, ["thursday", "thu", "quinta", "quinta-feira", "qui"]),
      (.friday, ["friday", "fri", "sexta", "sexta-feira", "sex"]),
      (.saturday, ["saturday", "sat", "sabado", "sábado", "sab", "sáb"]),
      (.sunday, ["sunday", "sun", "domingo", "dom"])]
  (names.find? fun d => d.2.contains name).map (·.1)

/-- The opening hours of a day, as they are written. -/
structure DayWindow where
  active : Bool
  start : String
  stop : String
deriving DecidableEq, Repr

namespace DayWindow

/-- Reads the opening hours of a day off a value. -/
def decode : Decoder DayWindow :=
  Decode.record "DayWindow" <|
    DayWindow.mk <$> Decode.Shape.required "active" Decode.bool
      <*> Decode.Shape.required "start" Decode.string
      <*> Decode.Shape.required "end" Decode.string

/-- The opening hours as a value. -/
def toJson (w : DayWindow) : Json :=
  .obj [("active", .bool w.active), ("start", .str w.start), ("end", .str w.stop)]

/-- The two times of an active window, if both can be read. -/
def times? (w : DayWindow) : Option (ClockTime × ClockTime) := do
  if !w.active then none
  return (← ClockTime.ofText? w.start, ← ClockTime.ofText? w.stop)

end DayWindow

/-- Opening hours by the names of days. -/
abbrev Days := List (String × DayWindow)

/-- Weekly opening hours. -/
structure Schedule where
  id : String
  name : String
  /-- The minutes that the local clock is ahead of UTC, if they are known. -/
  offset : Option Int
  days : Days
deriving DecidableEq, Repr

namespace Schedule

/-- Reads opening hours by day off a value. -/
def decodeDays : Decoder Days := Decode.byName DayWindow.decode

/-- Reads a schedule off a value. -/
def decode : Decoder Schedule :=
  Decode.record "Schedule" <|
    Schedule.mk <$> Decode.Shape.defaulted "id" "" Decode.string
      <*> Decode.Shape.defaulted "name" "" Decode.string
      <*> Decode.Shape.maybe "utcOffsetMinutes" Decode.int32
      <*> Decode.Shape.defaulted "days" [] decodeDays

/-- The schedule as a value. -/
def toJson (s : Schedule) : Json :=
  .obj [("id", .str s.id), ("name", .str s.name),
    ("utcOffsetMinutes", s.offset.elim .null .int),
    ("days", .obj (s.days.map fun d => (d.1, d.2.toJson)))]

/-- The two times of the window of a weekday. -/
def window? (s : Schedule) (day : Weekday) : Option (ClockTime × ClockTime) :=
  (s.days.find? fun d => Weekday.ofName? d.1 = some day).bind (·.2.times?)

/-- The time of day lies in the window of its own day. -/
def withinToday (window : Option (ClockTime × ClockTime)) (time : Nat) : Bool :=
  match window with
  | none => false
  | some (start, stop) =>
    if start.nanos ≤ stop.nanos then start.nanos ≤ time && time ≤ stop.nanos
    else start.nanos ≤ time

/-- The time of day lies in what the window of the day before leaves for it. -/
def withinRest (window : Option (ClockTime × ClockTime)) (time : Nat) : Bool :=
  match window with
  | none => false
  | some (start, stop) => stop.nanos < start.nanos && time ≤ stop.nanos

/-- Whether it is open at a local time. -/
def isOpenAt (s : Schedule) (t : LocalTime) : Bool :=
  withinToday (s.window? t.weekday) t.time || withinRest (s.window? t.weekday.previous) t.time

/-- Whether it is open at an instant; `offset` is for schedules that have none themselves. -/
def isOpen (s : Schedule) (now : Instant) (offset : Int) : Bool :=
  s.isOpenAt (.ofInstant now (s.offset.getD offset))

end Schedule

end Dialogue
