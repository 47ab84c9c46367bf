import Dialogue.Proofs.Program.Live
import Dialogue.Proofs.Schedule.Windows
import Dialogue.Proofs.Store.Lossless
import Dialogue.Turn.Visit

/-! # Several names of a weekday

The days of a schedule are found by name and have no order of their own, but of several entries for
one weekday only the first counts. Which one that is can be chosen for each weekday apart by putting
the entries into an order. So the answers that a schedule can give at a time of the week are those
of any entry for the day with any entry for the day before.

* `exists_order`: each entry counts in some order, and nothing else changes by that.
* `exists_isOpen_iff`: the answers that the orders of the days give.
* `isOpen_perm_iff`: which schedules give the same answer in every order.
* `live_visitSchedule`: the way of a schedule node.
* `isOpen_perm_of_steady`: with that, what the orders of the days leave as it is.
* `isOpen_doubled`: a schedule whose answers depend on the order. -/

namespace Dialogue

theorem Weekday.previous_ne (day : Weekday) : day.previous ≠ day := by
  cases day <;> decide

namespace LocalTime

theorem exists_weekdayOf (day : Weekday) : ∃ n, weekdayOf n = day := by
  cases day with
  | monday => exact ⟨-3, rfl⟩
  | tuesday => exact ⟨-2, rfl⟩
  | wednesday => exact ⟨-1, rfl⟩
  | thursday => exact ⟨0, rfl⟩
  | friday => exact ⟨1, rfl⟩
  | saturday => exact ⟨2, rfl⟩
  | sunday => exact ⟨3, rfl⟩

/-- Every time of the week is shown by the clock at some instant. -/
theorem exists_ofInstant (day : Weekday) {time : Nat} (h : time < dayNanos) (offset : Int) :
    ∃ now, (ofInstant now offset).weekday = day ∧ (ofInstant now offset).time = time := by
  obtain ⟨n, rfl⟩ := exists_weekdayOf day
  obtain ⟨now, hnow⟩ : ∃ now : Instant,
      now.nanos = n * dayNanos + time - usableOffset offset * 60000000000 := ⟨⟨_⟩, rfl⟩
  refine ⟨now, ?_⟩
  obtain ⟨hshown, htime⟩ := day_time_ofInstant now offset
  rw [hnow] at hshown
  rw [weekday]
  generalize ofInstant now offset = t at hshown htime ⊢
  rw [dayNanos] at h hshown htime
  have hday : t.day = n := by omega
  exact ⟨by rw [hday], by omega⟩

end LocalTime

namespace Schedule

variable {s : Schedule} {day : Weekday} {w : DayWindow} {p : Option (ClockTime × ClockTime)}
  {days : Days}

/-- These times may be the ones that count for a weekday: some entry names it and has them, or none
does and there are none. -/
def Counts (s : Schedule) (day : Weekday) (p : Option (ClockTime × ClockTime)) : Prop :=
  (∃ w, s.Names day w ∧ w.times? = p) ∨ (∀ w, ¬ s.Names day w) ∧ p = none

/-- An entry for the day and an entry for the day before give this answer at a time of the day. -/
def MayAnswer (s : Schedule) (day : Weekday) (time : Nat) (b : Bool) : Prop :=
  ∃ p q, s.Counts day p ∧ s.Counts day.previous q ∧ (withinToday p time || withinRest q time) = b

/-- At no time of the week do some entries say that it is open, and others that it is not. -/
def Steady (s : Schedule) : Prop :=
  ∀ day time, time < dayNanos → ¬ (s.MayAnswer day time true ∧ s.MayAnswer day time false)

/-! ### Orders of the days -/

theorem names_of_perm (h : days.Perm s.days) : { s with days }.Names day w ↔ s.Names day w :=
  exists_congr fun _ => and_congr_left' h.mem_iff

theorem counts_of_perm (h : days.Perm s.days) : { s with days }.Counts day p ↔ s.Counts day p := by
  simp only [Counts, names_of_perm h]

/-- The entry that is found is one of those that name the weekday. -/
theorem counts_window? (s : Schedule) (day : Weekday) : s.Counts day (s.window? day) := by
  rw [window?]
  cases hfind : s.days.find? fun d => Weekday.ofName? d.1 = some day with
  | none =>
    refine .inr ⟨?_, rfl⟩
    rintro w ⟨name, hmem, hname⟩
    rw [List.find?_eq_none] at hfind
    exact hfind _ hmem (by simpa using hname)
  | some d =>
    exact .inl ⟨d.2, ⟨d.1, List.mem_of_find?_eq_some hfind, by simpa using List.find?_some hfind⟩,
      rfl⟩

/-- Each entry for a weekday counts in some order, in which the other weekdays are as before. -/
theorem exists_order (h : s.Counts day p) :
    ∃ days, days.Perm s.days ∧ { s with days }.window? day = p ∧
      ∀ other ≠ day, { s with days }.window? other = s.window? other := by
  rcases h with ⟨w, ⟨name, hmem, hname⟩, rfl⟩ | ⟨hnone, rfl⟩
  · -- the entry is put in front, where no other weekday finds it
    obtain ⟨front, back, hdays⟩ := List.append_of_mem hmem
    refine ⟨(name, w) :: (front ++ back), ?_, ?_, fun other hother => ?_⟩
    · rw [hdays]
      exact List.perm_middle.symm
    · rw [window?, List.find?_cons_of_pos (by simpa using hname)]
      rfl
    · simp [window?, hdays, List.find?_append, hname, hother.symm]
  · refine ⟨s.days, .refl _, ?_, fun _ _ => rfl⟩
    rcases counts_window? s day with ⟨w, hw, -⟩ | ⟨-, hwindow⟩
    · exact absurd hw (hnone w)
    · exact hwindow

/-- **The answers of a schedule** in all orders of its days: those of any entry for the day with any
entry for the day before. -/
theorem exists_isOpen_iff (s : Schedule) (now : Instant) (offset : Int) (b : Bool) :
    (∃ days, days.Perm s.days ∧ { s with days }.isOpen now offset = b) ↔
      s.MayAnswer (LocalTime.ofInstant now (s.offset.getD offset)).weekday
        (LocalTime.ofInstant now (s.offset.getD offset)).time b := by
  simp only [isOpen, isOpenAt]
  generalize LocalTime.ofInstant now (s.offset.getD offset) = t
  constructor
  · rintro ⟨days, hperm, h⟩
    exact ⟨_, _, (counts_of_perm hperm).mp (counts_window? _ _),
      (counts_of_perm hperm).mp (counts_window? _ _), h⟩
  · rintro ⟨p, q, hp, hq, h⟩
    obtain ⟨days, hperm, hwindow, -⟩ := exists_order hp
    obtain ⟨days', hperm', hwindow', hother⟩ := exists_order ((counts_of_perm hperm).mpr hq)
    have hstill := (hother t.weekday t.weekday.previous_ne.symm).trans hwindow
    refine ⟨days', hperm'.trans hperm, ?_⟩
    rw [hstill, hwindow', h]

theorem NamesOnce.eq_of_names {w' : DayWindow} (h : s.NamesOnce) (hw : s.Names day w)
    (hw' : s.Names day w') : w = w' := by
  obtain ⟨name, hmem, hname⟩ := hw
  obtain ⟨name', hmem', hname'⟩ := hw'
  have hfound := (h.find?_eq hmem hname).symm.trans (h.find?_eq hmem' hname')
  exact congrArg Prod.snd (Option.some.inj hfound)

/-- A schedule in which the entries for a weekday have the same times is steady. -/
theorem steady_of_alike (h : ∀ day w w', s.Names day w → s.Names day w' → w.times? = w'.times?) :
    s.Steady := by
  have hcounts {day : Weekday} {p q : Option (ClockTime × ClockTime)} (hp : s.Counts day p)
      (hq : s.Counts day q) : p = q := by
    rcases hp with ⟨w, hw, rfl⟩ | ⟨hnone, rfl⟩ <;> rcases hq with ⟨w', hw', rfl⟩ | ⟨hnone', rfl⟩
    · exact h day w w' hw hw'
    · exact absurd hw (hnone' w)
    · exact absurd hw' (hnone w')
    · rfl
  rintro day time - ⟨⟨p, q, hp, hq, htrue⟩, p', q', hp', hq', hfalse⟩
  rw [hcounts hp hp', hcounts hq hq', hfalse] at htrue
  cases htrue

/-- The schedules that give the same answer in every order of their days. -/
theorem isOpen_perm_iff (s : Schedule) :
    (∀ days, days.Perm s.days → ∀ now offset,
      { s with days }.isOpen now offset = s.isOpen now offset) ↔ s.Steady := by
  constructor
  · rintro h day time htime ⟨hopen, hclosed⟩
    obtain ⟨now, rfl, rfl⟩ := LocalTime.exists_ofInstant day htime (s.offset.getD 0)
    obtain ⟨days, hperm, hopen⟩ := (exists_isOpen_iff s now 0 true).mpr hopen
    obtain ⟨days', hperm', hclosed⟩ := (exists_isOpen_iff s now 0 false).mpr hclosed
    rw [h days hperm] at hopen
    rw [h days' hperm', hopen] at hclosed
    cases hclosed
  · intro h days hperm now offset
    have hmay {days : Days} {b : Bool} (hperm : days.Perm s.days)
        (hb : { s with days }.isOpen now offset = b) :=
      (exists_isOpen_iff s now offset b).mp ⟨days, hperm, hb⟩
    have hnot := h (LocalTime.ofInstant now (s.offset.getD offset)).weekday _
      (LocalTime.day_time_ofInstant now (s.offset.getD offset)).2
    cases hb : { s with days }.isOpen now offset <;> cases hb' : s.isOpen now offset
    · rfl
    · exact absurd ⟨hmay (.refl _) hb', hmay hperm hb⟩ hnot
    · exact absurd ⟨hmay hperm hb, hmay (.refl _) hb'⟩ hnot
    · rfl

/-! ### Schedule nodes -/

section
open Turn

/-- A schedule node goes inside or outside by the schedule that it finds, at the time at which it
looks at the clock. -/
theorem live_visitSchedule (sc : Scene) (node : String) (id : Option String) (days : Days)
    (offset : Option Int) (vars : Variables) (w : World) (e : Nat → Moment) :
    (w.live e (sc.visitSchedule node id days offset vars)).2.2 =
      match w.live e (scheduleOf id days offset).run with
      | (e', _, .ok s) => .via vars <| .branch <| .fixed <|
          if s.isOpen (e' 0).time sc.settings.engine.offset then .inside else .outside
      | (_, _, .error f) => .failed f := by
  show (w.live e ((scheduleOf id days offset).run.bind _)).2.2 = _
  rw [World.live_bind]
  rcases w.live e (scheduleOf id days offset).run with ⟨e', w', s | f⟩ <;> rfl

end

/-- **The orders of the days** leave every answer of a schedule as it is exactly if the entries for
its weekdays say the same at every time of the week; entries for one weekday that have the same
times do. Then a schedule node goes the same way whatever order it finds the days in, stored or its
own, if it looks at the clock at the same time. -/
theorem isOpen_perm_of_steady (s : Schedule) :
    ((∀ days, days.Perm s.days → ∀ now offset,
        { s with days }.isOpen now offset = s.isOpen now offset) ↔ s.Steady) ∧
      ((∀ day w w', s.Names day w → s.Names day w' → w.times? = w'.times?) → s.Steady) ∧
      (s.Steady → ∀ (sc : Turn.Scene) (node : String) (vars : Variables)
        (id id' : Option String) (days days' : Days) (offset offset' : Option Int)
        (w w' u u' : World) (e e' l l' : Nat → Moment) (found found' : Days),
        w.live e (Turn.scheduleOf id days offset).run = (l, u, .ok { s with days := found }) →
        w'.live e' (Turn.scheduleOf id' days' offset').run =
          (l', u', .ok { s with days := found' }) →
        found.Perm s.days → found'.Perm s.days → (l 0).time = (l' 0).time →
          (w.live e (sc.visitSchedule node id days offset vars)).2.2 =
            (w'.live e' (sc.visitSchedule node id' days' offset' vars)).2.2) := by
  refine ⟨isOpen_perm_iff s, steady_of_alike, ?_⟩
  intro h sc node vars id id' days days' offset offset' w w' u u' e e' l l' found found' hfound
    hfound' hperm hperm' htime
  have hsame := (isOpen_perm_iff s).mpr h
  rw [live_visitSchedule, live_visitSchedule, hfound, hfound']
  simp only [hsame found hperm, hsame found' hperm', htime]

/-- The answers of `nightly` are the same whether Monday comes first or Friday. -/
theorem isOpen_perm_of_steady_nightly :
    nightly.Steady ∧ ∀ now offset,
      { nightly with days := nightly.days.reverse }.isOpen now offset =
        nightly.isOpen now offset := by
  have h := isOpen_perm_of_steady nightly
  have hsteady : nightly.Steady := h.2.1 fun day w w' hw hw' => by
    rw [namesOnce_nightly.eq_of_names hw hw']
  exact ⟨hsteady, h.1.mpr hsteady _ (List.reverse_perm _)⟩

/-- Mondays under two names, open all day under one of them. -/
def doubled : Schedule :=
  ⟨"s1", "office", none,
    [("monday", ⟨true, "00:00", "23:59"⟩), ("segunda", ⟨false, "00:00", "00:00"⟩)]⟩

/-- A schedule that is read off its value and kept as it is, and on a Monday at 10:00 in UTC is open
in one order of its days and closed in the other. -/
theorem isOpen_doubled :
    Schedule.decode (.ofJson doubled.toJson) = .ok doubled ∧
      (ScheduleRow.ofSchedule doubled 0).toSchedule = .ok doubled ∧
      doubled.isOpen (.ofMillis 1709546400000) 0 = true ∧
      { doubled with days := doubled.days.reverse }.isOpen (.ofMillis 1709546400000) 0 = false := by
  refine ⟨?_, ?_, ?_, ?_⟩
  all_goals decide +kernel

end Schedule

end Dialogue
