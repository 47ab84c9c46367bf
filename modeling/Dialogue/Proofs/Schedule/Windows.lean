import Dialogue.Schedule
import Mathlib.Data.List.Basic

/-! # Opening hours as intervals

A window of a weekday stands for one interval of local time for each date of that weekday: from the
start on the date to the end, which is on the next date if it comes before the start. Both ends
belong to the interval. A schedule is open exactly in the union of all these intervals. The code
looks at two dates only, the one of the local time and the one before.

* `withinToday_iff`, `withinRest_iff`: what the two tests say of the intervals of a window.
* `isOpen_iff_window?`: the union over the windows that count.
* `window?_eq_some_iff`: which windows count where no two names denote the same weekday.
* `isOpen_iff`: the union over all entries of such a schedule. -/

namespace Dialogue

namespace ClockTime

/-- The time of day on a date, in nanoseconds of the local clock since day zero began. -/
def on (t : ClockTime) (day : Int) : Int := day * dayNanos + t.nanos

theorem nanos_lt {s : String} {t : ClockTime} (h : ofText? s = some t) : t.nanos < dayNanos := by
  simp only [ofText?, Option.bind_eq_bind, Option.bind_eq_some_iff] at h
  obtain ⟨⟨hour, rest⟩, -, h⟩ := h
  dsimp only at h
  split at h
  · rw [Option.bind_eq_some_iff] at h
    obtain ⟨⟨minute, rest⟩, -, h⟩ := h
    split at h
    · split at h
      · cases h
        simp only [nanos, dayNanos]
        omega
      · cases h
    · cases h
  · cases h

end ClockTime

namespace LocalTime

theorem weekdayOf_pred (day : Int) : weekdayOf (day - 1) = (weekdayOf day).previous := by
  have hmod (d : Int) : d.fmod 7 = d % 7 := Int.fmod_eq_emod_of_nonneg d (by decide)
  have hlt : 0 ≤ (day + 3) % 7 ∧ (day + 3) % 7 < 7 := by omega
  have hpred : (day - 1 + 3) % 7 = ((day + 3) % 7 + 6) % 7 := by omega
  simp only [weekdayOf, hmod, hpred]
  generalize (day + 3) % 7 = k at hlt ⊢
  obtain rfl | rfl | rfl | rfl | rfl | rfl | rfl :
      k = 0 ∨ k = 1 ∨ k = 2 ∨ k = 3 ∨ k = 4 ∨ k = 5 ∨ k = 6 := by omega
  all_goals rfl

/-- The date and the time of day make up what the local clock shows. -/
theorem day_time_ofInstant (now : Instant) (offset : Int) :
    (ofInstant now offset).day * dayNanos + (ofInstant now offset).time =
        now.nanos + usableOffset offset * 60000000000 ∧
      (ofInstant now offset).time < dayNanos := by
  generalize hshown : now.nanos + usableOffset offset * 60000000000 = shown
  have hmod : shown.fmod dayNanos = shown % dayNanos :=
    Int.fmod_eq_emod_of_nonneg shown (by decide)
  have hdiv : shown.fdiv dayNanos = shown / dayNanos :=
    Int.fdiv_eq_ediv_of_nonneg shown (by decide)
  simp only [ofInstant, hshown, hmod, hdiv]
  rw [dayNanos]
  omega

end LocalTime

namespace DayWindow

/-- The window, on the date `day`, spans a local time. -/
def Spans (w : DayWindow) (day shown : Int) : Prop :=
  ∃ start stop, w.active = true ∧ ClockTime.ofText? w.start = some start ∧
    ClockTime.ofText? w.stop = some stop ∧ start.on day ≤ shown ∧
      shown ≤ stop.on (if stop.nanos < start.nanos then day + 1 else day)

theorem times?_eq_some_iff {w : DayWindow} {start stop : ClockTime} :
    w.times? = some (start, stop) ↔ w.active = true ∧ ClockTime.ofText? w.start = some start ∧
      ClockTime.ofText? w.stop = some stop := by
  cases hactive : w.active <;> simp [times?, hactive, Option.bind_eq_some_iff]

end DayWindow

namespace Schedule

/-- An entry that names the weekday has this window. -/
def Names (s : Schedule) (day : Weekday) (w : DayWindow) : Prop :=
  ∃ name, (name, w) ∈ s.days ∧ Weekday.ofName? name = some day

/-- No two entries name the same weekday. -/
def NamesOnce (s : Schedule) : Prop :=
  s.days.Pairwise fun d e => ∀ day, Weekday.ofName? d.1 = some day → Weekday.ofName? e.1 ≠ some day

/-! ### One window -/

section
variable {start stop : ClockTime} {day shown : Int} {time : Nat}

/-- In the date of the local time: the window of that date spans it. -/
theorem withinToday_iff (hshown : day * dayNanos + time = shown) (htime : time < dayNanos) :
    withinToday (some (start, stop)) time = true ↔
      start.on day ≤ shown ∧
        shown ≤ stop.on (if stop.nanos < start.nanos then day + 1 else day) := by
  unfold withinToday ClockTime.on
  dsimp only
  by_cases h : stop.nanos < start.nanos
  · rw [if_neg (Nat.not_le.mpr h), if_pos h, decide_eq_true_iff]
    rw [dayNanos] at hshown htime ⊢
    omega
  · rw [if_pos (Nat.not_lt.mp h), if_neg h, Bool.and_eq_true, decide_eq_true_iff,
      decide_eq_true_iff]
    omega

/-- From the date before: the window of that date spans the local time. -/
theorem withinRest_iff (hstart : start.nanos < dayNanos) (hstop : stop.nanos < dayNanos)
    (hshown : day * dayNanos + time = shown) :
    withinRest (some (start, stop)) time = true ↔
      start.on (day - 1) ≤ shown ∧
        shown ≤ stop.on (if stop.nanos < start.nanos then day - 1 + 1 else day - 1) := by
  unfold withinRest ClockTime.on
  rw [Bool.and_eq_true, decide_eq_true_iff, decide_eq_true_iff]
  rw [dayNanos] at hshown hstart hstop ⊢
  split_ifs <;> omega

/-- No window of another date spans the local time. -/
theorem eq_of_spans {other : Int} (hstart : start.nanos < dayNanos)
    (hstop : stop.nanos < dayNanos) (hshown : day * dayNanos + time = shown)
    (htime : time < dayNanos) (hfrom : start.on other ≤ shown)
    (hto : shown ≤ stop.on (if stop.nanos < start.nanos then other + 1 else other)) :
    other = day ∨ other = day - 1 := by
  unfold ClockTime.on at hfrom hto
  rw [dayNanos] at hshown hstart hstop hfrom hto htime
  split_ifs at hto <;> omega

end

/-! ### All windows -/

variable {s : Schedule} {day : Weekday} {w : DayWindow} {start stop : ClockTime}

theorem exists_times?_of_window? {p : ClockTime × ClockTime} (h : s.window? day = some p) :
    ∃ w, s.Names day w ∧ w.times? = some p := by
  rw [window?, Option.bind_eq_some_iff] at h
  obtain ⟨⟨name, w⟩, hfind, htimes⟩ := h
  exact ⟨w, ⟨name, List.mem_of_find?_eq_some hfind, by simpa using List.find?_some hfind⟩, htimes⟩

theorem window?_nanos_lt (h : s.window? day = some (start, stop)) :
    start.nanos < dayNanos ∧ stop.nanos < dayNanos := by
  obtain ⟨w, -, htimes⟩ := exists_times?_of_window? h
  obtain ⟨-, hstart, hstop⟩ := DayWindow.times?_eq_some_iff.mp htimes
  exact ⟨ClockTime.nanos_lt hstart, ClockTime.nanos_lt hstop⟩

/-- It is open exactly where the window that counts for some date spans the local time. -/
theorem isOpen_iff_window? {now : Instant} {offset shown : Int}
    (hshown : now.nanos + usableOffset (s.offset.getD offset) * 60000000000 = shown) :
    s.isOpen now offset = true ↔
      ∃ (day : Int) (start stop : ClockTime),
        s.window? (LocalTime.weekdayOf day) = some (start, stop) ∧ start.on day ≤ shown ∧
          shown ≤ stop.on (if stop.nanos < start.nanos then day + 1 else day) := by
  subst hshown
  obtain ⟨hshown, htime⟩ := LocalTime.day_time_ofInstant now (s.offset.getD offset)
  rw [isOpen, isOpenAt, Bool.or_eq_true]
  generalize LocalTime.ofInstant now (s.offset.getD offset) = t at hshown htime
  have hprevious : t.weekday.previous = LocalTime.weekdayOf (t.day - 1) :=
    (LocalTime.weekdayOf_pred t.day).symm
  rw [hprevious]
  constructor
  · rintro (h | h)
    · cases hw : s.window? t.weekday with
      | none => rw [hw] at h; cases h
      | some p =>
        rw [hw] at h
        exact ⟨t.day, p.1, p.2, hw, (withinToday_iff hshown htime).mp h⟩
    · cases hw : s.window? (LocalTime.weekdayOf (t.day - 1)) with
      | none => rw [hw] at h; cases h
      | some p =>
        rw [hw] at h
        obtain ⟨hstart, hstop⟩ := window?_nanos_lt hw
        exact ⟨t.day - 1, p.1, p.2, hw, (withinRest_iff hstart hstop hshown).mp h⟩
  · rintro ⟨day, start, stop, hw, hfrom, hto⟩
    obtain ⟨hstart, hstop⟩ := window?_nanos_lt hw
    rcases eq_of_spans hstart hstop hshown htime hfrom hto with rfl | rfl
    · left
      rw [LocalTime.weekday, hw, withinToday_iff hshown htime]
      exact ⟨hfrom, hto⟩
    · right
      rw [hw, withinRest_iff hstart hstop hshown]
      exact ⟨hfrom, hto⟩

/-- Where no two names denote the same weekday, every entry counts. -/
theorem NamesOnce.find?_eq (h : s.NamesOnce) {name : String} (hmem : (name, w) ∈ s.days)
    (hname : Weekday.ofName? name = some day) :
    (s.days.find? fun d => Weekday.ofName? d.1 = some day) = some (name, w) := by
  obtain ⟨front, back, hdays⟩ := List.append_of_mem hmem
  rw [NamesOnce, hdays, List.pairwise_append] at h
  have hfront : (front.find? fun d => Weekday.ofName? d.1 = some day) = none := by
    rw [List.find?_eq_none]
    intro d hd hday
    exact h.2.2 d hd _ (List.mem_cons_self ..) day (by simpa using hday) hname
  rw [hdays, List.find?_append, hfront, Option.none_or,
    List.find?_cons_of_pos (by simpa using hname)]

theorem window?_eq_some_iff (h : s.NamesOnce) {p : ClockTime × ClockTime} :
    s.window? day = some p ↔ ∃ w, s.Names day w ∧ w.times? = some p := by
  refine ⟨exists_times?_of_window?, ?_⟩
  rintro ⟨w, ⟨name, hmem, hname⟩, htimes⟩
  rw [window?, h.find?_eq hmem hname]
  exact htimes

/-- **Opening hours.** A schedule in which no two names denote the same weekday is open at an
instant exactly if there is a date whose weekday has an active window, with two times that can be
read, that spans the local time. The local clock is ahead of UTC by the offset of the schedule
itself, or else by the other one; an offset of a day or more counts as none. -/
theorem isOpen_iff (h : s.NamesOnce) (now : Instant) (offset : Int) :
    s.isOpen now offset = true ↔
      ∃ (day : Int) (w : DayWindow), s.Names (LocalTime.weekdayOf day) w ∧
        w.Spans day (now.nanos + usableOffset (s.offset.getD offset) * 60000000000) := by
  rw [isOpen_iff_window? rfl]
  simp only [window?_eq_some_iff h]
  constructor
  · rintro ⟨day, start, stop, ⟨w, hw, htimes⟩, hspans⟩
    obtain ⟨hactive, hstart, hstop⟩ := DayWindow.times?_eq_some_iff.mp htimes
    exact ⟨day, w, hw, start, stop, hactive, hstart, hstop, hspans⟩
  · rintro ⟨day, w, hw, start, stop, hactive, hstart, hstop, hspans⟩
    exact ⟨day, start, stop, ⟨w, hw, DayWindow.times?_eq_some_iff.mpr ⟨hactive, hstart, hstop⟩⟩,
      hspans⟩

/-- Hours on Mondays, and on Fridays until after midnight. -/
def nightly : Schedule :=
  ⟨"s1", "office", some (-180),
    [("Segunda", ⟨true, "20:00", "23:00"⟩), (" fri", ⟨true, "22:00", "02:00"⟩)]⟩

theorem namesOnce_nightly : nightly.NamesOnce := by
  have hmonday : Weekday.ofName? "Segunda" = some .monday := by decide +kernel
  have hfriday : Weekday.ofName? " fri" = some .friday := by decide +kernel
  refine List.pairwise_pair.mpr fun day h h' => ?_
  cases hmonday.symm.trans h
  cases hfriday.symm.trans h'

/-- On a Saturday at 04:30 in UTC, which is 01:30 by the clock of the schedule, the window of the
Friday before is still open. -/
theorem isOpen_iff_nightly :
    nightly.NamesOnce ∧ nightly.isOpen (.ofMillis 1709958600000) 60 = true := by
  refine ⟨namesOnce_nightly, (isOpen_iff namesOnce_nightly _ _).mpr
    ⟨19790, ⟨true, "22:00", "02:00"⟩, ⟨" fri", .tail _ (.head _), ?_⟩,
      ⟨22, 0⟩, ⟨2, 0⟩, rfl, ?_, ?_, ?_, ?_⟩⟩
  all_goals decide +kernel

/-- The end belongs to that window, half a millisecond later does not. -/
example : nightly.isOpen (.ofMillis 1709960400000) 60 = true ∧
    nightly.isOpen ⟨1709960400000500000⟩ 60 = false := by
  decide +kernel

end Schedule

end Dialogue
