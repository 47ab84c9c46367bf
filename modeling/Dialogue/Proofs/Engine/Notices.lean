import Dialogue.Proofs.Engine.Custody

/-! # Notices and the processes at hand

A process that has retired leaves a notice, if there is room for it. The sweeper takes the notices
one by one and drops the processes of their sessions from those at hand; a call that finds a process
that has retired starts a new one in its place. As long as the engine is not shut down nothing else
happens to the notices, to the processes at hand and to those that have retired.

* `Process.stands_or_retires`: where a process retires that was not told to stop.
* `sweep_eq`, `notice_eq`: what becomes of the notices.
* `handles_after`: all that can happen.
* `Unshut.earlier`: what an engine is like that was not shut down. -/

namespace Dialogue

namespace Process

/-- The process has the session that it had, and was told to stop or has retired as before. -/
structure Stands (p p' : Process) : Prop where
  session : p'.session = p.session
  retired : p'.retired = p.retired
  stopped : p'.stopped = p.stopped

theorem Stands.refl (p : Process) : p.Stands p := ⟨rfl, rfl, rfl⟩

/-- The process has answered, and no command waits. -/
structure IsDone (p : Process) : Prop where
  answered : p.work = .answered
  empty : p.queue.items = []

/-- The process when it has retired by itself. -/
def retire (p : Process) : Process := { p with work := .finished, retired := true }

variable {settings : Settings} {p : Process} {w : World} {time : Nat} {peer : Http.Attempt}
  {heed : Bool} {e : Effect}

theorem stands_of_ask {call : Nat} {a : Ask} {next : a.Answer → Program (Outcome Turn.Report)}
    (h : p.ask w time peer call a next = some e) : p.Stands e.process ∧ e.retires = false := by
  unfold ask at h
  split at h
  · cases h
    exact ⟨⟨rfl, rfl, rfl⟩, rfl⟩
  · cases h
    exact ⟨⟨rfl, rfl, rfl⟩, rfl⟩
  · split at h
    · cases h
      exact ⟨⟨rfl, rfl, rfl⟩, rfl⟩
    · split at h
      · cases h
        exact ⟨⟨rfl, rfl, rfl⟩, rfl⟩
      · cases h
  · cases h
    exact ⟨⟨rfl, rfl, rfl⟩, rfl⟩

/-- A process that is done retires. -/
theorem IsDone.step_eq (h : p.IsDone) (settings : Settings) (w : World) (time : Nat)
    (peer : Http.Attempt) (heed : Bool) :
    p.step settings w time peer heed = some ⟨p.retire, w, none, true⟩ := by
  have hempty : p.queue.isEmpty = true := List.isEmpty_iff.mpr h.empty
  unfold step retireIfIdle
  rw [h.answered]
  show some _ = some _
  rw [hempty, if_pos rfl]
  rfl

/-- A process that was not told to stop retires where it is done, and only there. -/
theorem stands_or_retires (hs : p.stopped = false)
    (h : p.step settings w time peer heed = some e) :
    p.Stands e.process ∧ e.retires = false ∨
      p.IsDone ∧ e.process = p.retire ∧ e.retires = true := by
  unfold step at h
  split at h
  · rw [hs, Bool.false_and, if_neg Bool.false_ne_true] at h
    obtain ⟨⟨x, queue⟩, -, h⟩ := Option.map_eq_some_iff.mp h
    cases h
    exact .inl ⟨⟨rfl, rfl, hs.symm⟩, rfl⟩
  · cases h
    exact .inl ⟨⟨rfl, rfl, rfl⟩, rfl⟩
  · exact .inl (stands_of_ask h)
  · rename_i hw
    cases h
    unfold retireIfIdle BoundedQueue.isEmpty
    cases hq : p.queue.items with
    | nil => exact .inr ⟨⟨hw, hq⟩, rfl, rfl⟩
    | cons x rest => exact .inl ⟨⟨rfl, rfl, rfl⟩, rfl⟩
  · split at h <;> cases h <;> exact .inl ⟨⟨rfl, rfl, rfl⟩, rfl⟩
  · cases h

end Process

namespace Machine

variable {m m' : Machine} {x : Happening} {s : String} {k : Nat}

/-! ### What happens to the notices and to the processes at hand -/

/-- Each process stands as it did. -/
def Stand (m m' : Machine) : Prop :=
  ∀ k : Nat, Option.Rel Process.Stands m.processes[k]? m'.processes[k]?

theorem stand_of_eq (h : m'.processes = m.processes) : m.Stand m' := by
  intro k
  rw [h]
  exact rel_self Process.Stands.refl _

theorem stand_of_set {p p' : Process} (hp : m.processes[k]? = some p) (h : p.Stands p')
    (hps : m'.processes = m.processes.set k p') : m.Stand m' := by
  intro i
  rw [hps]
  exact rel_set Process.Stands.refl hp h i

/-- What happens to the notices and to the processes at hand as long as nobody is told to stop. -/
inductive Handles (m m' : Machine) : Happening → Prop
  /-- Neither these nor those change. -/
  | rests {x : Happening} (hp : m.Stand m') (ha : m'.atHand = m.atHand)
      (hn : m'.notices = m.notices) : Handles m m' x
  /-- A call starts a process for its session. -/
  | starts {n : Nat} {o : Order} (hc : m.calls[n]? = some (.finding o))
      (hp : m'.processes = (m.startProcess o.session).processes)
      (ha : m'.atHand = (m.startProcess o.session).atHand) (hn : m'.notices = m.notices) :
      Handles m m' (.step (.call n))
  /-- A process retires by itself. -/
  | retires {k : Nat} {peer : Http.Attempt} {heed : Bool} {p : Process}
      (hp : m.processes[k]? = some p) (hd : p.IsDone)
      (hps : m'.processes = m.processes.set k p.retire) (ha : m'.atHand = m.atHand)
      (hn : m'.notices = (m.notice p.session).notices) :
      Handles m m' (.step (.process k peer heed))
  /-- The sweeper takes a notice. -/
  | sweeps {heed : Bool} {s : String} {rest : List String} (hq : m.notices.items = s :: rest)
      (hp : m'.processes = m.processes)
      (ha : m'.atHand = m.atHand ∨ m'.atHand = m.atHand.filter (·.1 ≠ s))
      (hn : m'.notices = { m.notices with items := rest }) : Handles m m' (.step (.sweep heed))

theorem stand_abortTurn (m : Machine) (session : String) : m.Stand (m.abortTurn session) := by
  unfold abortTurn
  split
  · rename_i n p hp
    have hs : p.Stands p.abortTurn := ⟨rfl, rfl, rfl⟩
    exact stand_of_set (process?_eq_some hp).2 hs rfl
  · exact stand_of_eq rfl

/-- A command that arrives leaves the notices and the processes at hand. -/
theorem arrive_rests (m : Machine) (n : Nat) (o : Order) :
    m.Stand (m.arrive n o) ∧ (m.arrive n o).atHand = m.atHand ∧
      (m.arrive n o).notices = m.notices := by
  have hturn : m.Stand (if o.command = .close then m.abortTurn o.session else m) ∧
      (if o.command = .close then m.abortTurn o.session else m).atHand = m.atHand ∧
      (if o.command = .close then m.abortTurn o.session else m).notices = m.notices := by
    split
    · refine ⟨stand_abortTurn m o.session, ?_⟩
      obtain ⟨processes, heq, -⟩ := abortTurn_eq m o.session
      rw [heq]
      exact ⟨rfl, rfl⟩
    · exact ⟨stand_of_eq rfl, rfl, rfl⟩
  unfold arrive
  dsimp only
  split <;> exact hturn

theorem handles_stepCall {n : Nat} (h : m.stepCall n = some m') :
    m.Handles m' (.step (.call n)) := by
  obtain ⟨c, hn, h⟩ := Option.bind_eq_some_iff.mp h
  cases c with
  | starting | seeking =>
    cases h
    exact .rests (stand_of_eq rfl) rfl rfl
  | opening rest =>
    rcases rest with (f | session) | ⟨a, next⟩ <;> cases h <;>
      exact .rests (stand_of_eq rfl) rfl rfl
  | arriving o =>
    cases h
    obtain ⟨hp, ha, hq⟩ := arrive_rests m n o
    exact .rests hp ha hq
  | finding o =>
    cases h
    unfold findProcess
    split
    · split
      · exact .starts hn rfl rfl rfl
      · exact .rests (stand_of_eq rfl) rfl rfl
    · exact .starts hn rfl rfl rfl
  | posting o k =>
    obtain ⟨p, hp, h⟩ := Option.bind_eq_some_iff.mp h
    unfold Process.enqueue BoundedQueue.send? at h
    split at h
    · cases h
      exact .rests (stand_of_eq rfl) rfl rfl
    · cases h
      exact .rests (stand_of_eq rfl) rfl rfl
    · rename_i p' hp'
      cases h
      refine .rests (stand_of_set hp ?_ rfl) rfl rfl
      split at hp'
      · cases hp'
      · split at hp' <;> cases hp'
        exact ⟨rfl, rfl, rfl⟩
  | waiting | answered => cases h

/-- No process was told to stop. -/
def Unstopped (m : Machine) : Prop :=
  ∀ {k : Nat} {p : Process}, m.processes[k]? = some p → p.stopped = false

theorem handles_stepProcess (hu : m.Unstopped) {peer : Http.Attempt} {heed : Bool}
    (h : m.stepProcess k peer heed = some m') : m.Handles m' (.step (.process k peer heed)) := by
  obtain ⟨p, hp, h'⟩ := Option.bind_eq_some_iff.mp h
  obtain ⟨e, he, -⟩ := Option.bind_eq_some_iff.mp h'
  cases (stepProcess_eq hp he).symm.trans h
  obtain ⟨hs, hr⟩ | ⟨hd, hs, hr⟩ := Process.stands_or_retires (hu hp) he
  · exact .rests (stand_of_set hp hs rfl) rfl (if_neg (Bool.eq_false_iff.mp hr))
  · exact .retires hp hd (congrArg (m.processes.set k) hs) rfl (if_pos hr)

/-- The sweeper takes a notice and drops the process of the session if it has retired. -/
theorem sweep_eq {heed : Bool} (hh : (m.wasShut && heed) = false) {rest : List String}
    (hq : m.notices.items = s :: rest) :
    m.sweep heed = some { m with
      notices := { m.notices with items := rest }
      atHand := if (m.process? s).any (·.2.retired) then m.atHand.filter (·.1 ≠ s)
        else m.atHand } := by
  have hnext : m.notices.next? = some (s, { m.notices with items := rest }) := by
    obtain ⟨hnil, -⟩ | ⟨t, tail, hitems, hnext⟩ := Process.next?_cases m.notices
    · cases hnil.symm.trans hq
    · cases hitems.symm.trans hq
      exact hnext
  simp only [sweep, hh, Bool.false_eq_true, if_false, hnext, Option.bind_eq_bind,
    Option.bind_some]
  split
  · rename_i k p hp
    change m.process? s = some (k, p) at hp
    rw [hp]
    show some (if p.retired then _ else _) = _
    cases hr : p.retired <;> simp only [Option.any_some, hr] <;> rfl
  · rename_i hp
    change m.process? s = none at hp
    rw [hp]
    rfl

theorem handles_sweep {heed : Bool} (h : m.sweep heed = some m') :
    m.Handles m' (.step (.sweep heed)) := by
  cases hh : m.wasShut && heed with
  | true =>
    rw [sweep, hh] at h
    cases h
  | false =>
    cases hq : m.notices.items with
    | nil =>
      obtain ⟨-, hnone⟩ | ⟨t, rest, hitems, -⟩ := Process.next?_cases m.notices
      · simp only [sweep, hh, hnone] at h
        cases h
      · cases hitems.symm.trans hq
    | cons s rest =>
      cases (sweep_eq hh hq).symm.trans h
      refine .sweeps hq rfl ?_ rfl
      split
      · exact .inr rfl
      · exact .inl rfl

/-- **Upkeep.** What happens to the notices and to the processes at hand as long as the engine is
not shut down. -/
theorem handles_after (hu : m.Unstopped) (x : Happening) (hs : (m.after x).wasShut = false) :
    m.Handles (m.after x) x := by
  cases x with
  | submit | launch | pass | others => exact .rests (stand_of_eq rfl) rfl rfl
  | step c =>
    show m.Handles ((m.step c).getD m) _
    cases hstep : m.step c with
    | none => exact .rests (stand_of_eq rfl) rfl rfl
    | some m' =>
      cases c with
      | call n => exact handles_stepCall hstep
      | process k peer heed => exact handles_stepProcess hu hstep
      | sweep heed => exact handles_sweep hstep
  | shutDown =>
    change m.shutDown.wasShut = false at hs
    show m.Handles m.shutDown _
    unfold shutDown at hs ⊢
    split at hs
    · obtain ⟨ps, hps, -⟩ := stopAll_eq m.atHand { m with running := false, wasShut := true }
      rw [hps] at hs
      cases hs
    · rw [if_neg ‹_›]
      exact .rests (stand_of_eq rfl) rfl rfl

/-! ### Engines that were not shut down -/

/-- An engine that was not shut down. -/
structure Unshut (m : Machine) : Prop extends Orderly m where
  wasShut : m.wasShut = false
  unstopped : m.Unstopped
  capacity : m.notices.capacity = noticeSize

theorem unshut_new (settings : Settings) (w : World) : (new settings w).Unshut where
  toOrderly := orderly_new settings w
  wasShut := rfl
  unstopped h := nomatch h
  capacity := rfl

/-- An engine that was shut down stays one that was. -/
theorem wasShut_of_after (h : (m.after x).wasShut = false) : m.wasShut = false := by
  cases x with
  | submit | launch | pass | others => exact h
  | step c => exact (frame_step m c).wasShut.symm.trans h
  | shutDown =>
    change m.shutDown.wasShut = false at h
    unfold shutDown at h
    split at h
    · obtain ⟨ps, hps, -⟩ := stopAll_eq m.atHand { m with running := false, wasShut := true }
      rw [hps] at h
      cases h
    · exact h

theorem Stand.back (h : m.Stand m') {p' : Process} (hp : m'.processes[k]? = some p') :
    ∃ p, m.processes[k]? = some p ∧ p.Stands p' :=
  rel_back (h k) hp

/-- Nobody is told to stop. -/
theorem Handles.unstopped (h : m.Handles m' x) (hu : m.Unstopped) : m'.Unstopped := by
  intro k p' hp'
  cases h with
  | rests hp =>
    obtain ⟨p, hp, hs⟩ := hp.back hp'
    exact hs.stopped.trans (hu hp)
  | starts hc hp =>
    rw [hp] at hp'
    rcases processes_start_cases hp' with h | ⟨-, rfl⟩
    · exact hu h
    · rfl
  | @retires i _ _ p hp hd hps =>
    rw [hps] at hp'
    by_cases hi : k = i
    · rw [hi, set_self hp] at hp'
      cases hp'
      show p.stopped = false
      exact hu hp
    · rw [List.getElem?_set, if_neg (Ne.symm hi)] at hp'
      exact hu hp'
  | sweeps hq hp =>
    rw [hp] at hp'
    exact hu hp'

/-- A notice waits behind the others if there is room for it, and is lost otherwise. -/
theorem notice_eq (m : Machine) (s : String) : (m.notice s).notices =
    if m.notices.items.length < m.notices.capacity then
      { m.notices with items := m.notices.items ++ [s] }
    else m.notices := by
  unfold notice BoundedQueue.send?
  split
  · rename_i q hq
    split at hq <;> cases hq
    exact (if_pos ‹_›).symm
  · rename_i hq
    split at hq <;> cases hq
    exact (if_neg ‹_›).symm

theorem Handles.capacity_eq (h : m.Handles m' x) : m'.notices.capacity = m.notices.capacity := by
  cases h with
  | rests _ _ hn | starts _ _ _ hn | sweeps _ _ _ hn => rw [hn]
  | retires _ _ _ _ hn =>
    rw [hn, notice_eq]
    split <;> rfl

theorem Unshut.after (h : m.Unshut) (hs : (m.after x).wasShut = false) : (m.after x).Unshut where
  toOrderly := h.toOrderly.after x
  wasShut := hs
  unstopped := (handles_after h.unstopped x hs).unstopped h.unstopped
  capacity := (handles_after h.unstopped x hs).capacity_eq.trans h.capacity

variable {what : Nat → Happening} {i j : Nat}

theorem unshut_course {settings : Settings} {w : World}
    (h : ((new settings w).course what i).wasShut = false) :
    ((new settings w).course what i).Unshut := by
  induction i with
  | zero => exact unshut_new settings w
  | succ i ih => exact (ih (wasShut_of_after h)).after h

/-- At a moment at which the engine was not shut down yet. -/
theorem Unshut.earlier {settings : Settings} {w : World} (hij : i ≤ j)
    (h : ((new settings w).course what j).wasShut = false) :
    ((new settings w).course what i).Unshut := by
  induction hij with
  | refl => exact unshut_course h
  | step hij ih => exact ih (wasShut_of_after h)

end Machine

end Dialogue
