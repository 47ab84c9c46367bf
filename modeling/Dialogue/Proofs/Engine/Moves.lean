import Dialogue.Engine.Machine

/-! # What can happen to an engine

Users call the engine, its calls, processes and the sweeper take their turns, it is launched and
shut down, time passes, and others work on the store. Whatever happens, it is one of a few moves as
far as calls, processes and the processes at hand are concerned.

* `Process.does_of_step`: what a step of a process does.
* `after_moves`: the moves of an engine.
* `Moves.process`, `Moves.call`: what becomes of a process and of a call by a move. -/

namespace Dialogue

/-! ### Processes -/

namespace Process

/-- Whatever else happened to the process, it has the same commands and does the same. -/
structure Alike (p p' : Process) : Prop where
  session : p'.session = p.session
  queue : p'.queue = p.queue
  work : p'.work = p.work
  retired : p'.retired = p.retired
  wake : p'.wake = p.wake

theorem Alike.refl (p : Process) : p.Alike p := ⟨rfl, rfl, rfl, rfl, rfl⟩

theorem Alike.trans {p p' p'' : Process} (h : p.Alike p') (h' : p'.Alike p'') : p.Alike p'' :=
  ⟨h'.session.trans h.session, h'.queue.trans h.queue, h'.work.trans h.work,
    h'.retired.trans h.retired, h'.wake.trans h.wake⟩

theorem alike_abortTurn (p : Process) : p.Alike p.abortTurn := ⟨rfl, rfl, rfl, rfl, rfl⟩

theorem alike_stop (p : Process) : p.Alike p.stop := ⟨rfl, rfl, rfl, rfl, rfl⟩

/-- The process with other commands that wait. -/
def withItems (p : Process) (items : List Pending) : Process :=
  { p with queue := { p.queue with items } }

/-- What a step of a process does. -/
inductive Does (settings : Settings) (p : Process) : Effect → Prop
  /-- It heeds that it was told to stop. -/
  | heeds (w : World) (hw : p.work = .idle) :
      Does settings p (.quiet { p with work := .draining, retired := true } w)
  | takes (w : World) {x : Pending} {rest : List Pending} (hw : p.work = .idle)
      (hq : p.queue.items = x :: rest) :
      Does settings p (.quiet { p.withItems rest with
        work := .busy x.call (Command.handle settings p.session x.command).run } w)
  | asks (w : World) {call : Nat} {a : Ask} {next : a.Answer → Program (Outcome Turn.Report)}
      {p' : Process} (hw : p.work = .busy call (.ask a next)) (hs : p'.session = p.session)
      (hq : p'.queue = p.queue) (hr : p'.retired = p.retired)
      (hnext : (∃ x, p'.work = .busy call (next x)) ∨
        p.wake = none ∧ p'.work = p.work ∧ p'.wake.isSome = true) :
      Does settings p (.quiet p' w)
  | answers (w : World) {call : Nat} {r : Outcome Turn.Report}
      (hw : p.work = .busy call (.done r)) :
      Does settings p ⟨{ p with work := .answered }, w, some (call, r), false⟩
  | retires (w : World) (hw : p.work = .answered) (hq : p.queue.items = []) :
      Does settings p ⟨{ p with work := .finished, retired := true }, w, none, true⟩
  | stays (w : World) (hw : p.work = .answered) (hq : p.queue.items ≠ []) :
      Does settings p ⟨{ p with work := .idle }, w, none, false⟩
  | dismisses (w : World) {x : Pending} {rest : List Pending} (hw : p.work = .draining)
      (hq : p.queue.items = x :: rest) :
      Does settings p ⟨p.withItems rest, w, some (x.call, .error stopping), false⟩
  | finishes (w : World) (hw : p.work = .draining) (hq : p.queue.items = []) :
      Does settings p (.quiet { p with work := .finished } w)

variable {settings : Settings} {p : Process} {w : World} {time : Nat} {peer : Http.Attempt}
  {heed : Bool} {e : Effect}

theorem next?_cases {α : Type} (q : BoundedQueue α) :
    q.items = [] ∧ q.next? = none ∨
      ∃ a rest, q.items = a :: rest ∧ q.next? = some (a, { q with items := rest }) := by
  obtain ⟨capacity, items⟩ := q
  cases items with
  | nil => exact .inl ⟨rfl, rfl⟩
  | cons a rest => exact .inr ⟨a, rest, rfl, rfl⟩

theorem does_of_ask {call : Nat} {a : Ask} {next : a.Answer → Program (Outcome Turn.Report)}
    (hw : p.work = .busy call (.ask a next)) (h : p.ask w time peer call a next = some e) :
    p.Does settings e := by
  unfold ask at h
  split at h
  · cases h
    exact .asks w hw rfl rfl rfl (.inl ⟨_, rfl⟩)
  · cases h
    exact .asks w hw rfl rfl rfl (.inl ⟨_, rfl⟩)
  · split at h
    · cases h
      exact .asks w hw rfl rfl rfl (.inr ⟨‹_›, rfl, rfl⟩)
    · split at h
      · cases h
        exact .asks w hw rfl rfl rfl (.inl ⟨_, rfl⟩)
      · cases h
  · cases h
    exact .asks _ hw rfl rfl rfl (.inl ⟨_, rfl⟩)

theorem does_of_step (h : p.step settings w time peer heed = some e) : p.Does settings e := by
  unfold step at h
  split at h
  · rename_i hw
    split at h
    · cases h
      exact .heeds w hw
    · obtain ⟨-, hq⟩ | ⟨x, rest, hitems, hq⟩ := next?_cases p.queue
      · rw [hq] at h
        cases h
      · rw [hq] at h
        cases h
        exact .takes w hw hitems
  · cases h
    exact .answers w ‹_›
  · exact does_of_ask ‹_› h
  · rename_i hw
    cases h
    unfold retireIfIdle BoundedQueue.isEmpty
    cases hitems : p.queue.items with
    | nil => exact .retires w hw hitems
    | cons x rest =>
      have hne : p.queue.items ≠ [] := by rw [hitems]; exact List.cons_ne_nil x rest
      exact .stays w hw hne
  · rename_i hw
    obtain ⟨hitems, hq⟩ | ⟨x, rest, hitems, hq⟩ := next?_cases p.queue
    · rw [hq] at h
      cases h
      exact .finishes w hw hitems
    · rw [hq] at h
      cases h
      exact .dismisses w hw hitems
  · cases h

end Process

/-! ### Calls -/

/-- The call has not found the process of its session yet. -/
def Call.Early : Call → Prop
  | .starting _ | .opening _ | .arriving _ | .seeking _ | .finding _ => True
  | .posting _ _ | .waiting | .answered _ => False

/-- The call goes on without a process, or is answered without one. -/
def Call.Ahead (c : Call) : Prop := c.Early ∨ ∃ r, c = .answered r

/-! ### Engines -/

/-- Something that happens to an engine. -/
inductive Happening where
  /-- A user calls. -/
  | submit (r : Request)
  /-- A call, a process or the sweeper takes its turn, if it can. -/
  | step (c : Choice)
  | launch
  | shutDown
  | pass (duration : Nat)
  /-- Others change the world. -/
  | others (w : World)

namespace Machine

/-- The engine after something has happened. -/
def after (m : Machine) : Happening → Machine
  | .submit r => m.submit r
  | .step c => (m.step c).getD m
  | .launch => m.launch
  | .shutDown => m.shutDown
  | .pass d => m.pass d
  | .others w => { m with world := w }

/-- The processes have the same commands and do the same. -/
def Still (m m' : Machine) : Prop :=
  ∀ k : Nat, Option.Rel Process.Alike m.processes[k]? m'.processes[k]?

/-- What becomes of the calls when a process answers. -/
def answering (calls : List Call) : Option (Nat × Outcome Turn.Report) → List Call
  | some (n, r) => calls.set n (.answered r)
  | none => calls

/-- The moves of an engine. -/
inductive Moves (m : Machine) : Machine → Prop
  | rests {m' : Machine} (hp : m.Still m') (ha : m'.atHand = m.atHand) (hc : m'.calls = m.calls) :
      Moves m m'
  | submits {m' : Machine} {c : Call} (h : c.Early) (hp : m.Still m') (ha : m'.atHand = m.atHand)
      (hc : m'.calls = m.calls ++ [c]) : Moves m m'
  | goes {m' : Machine} {n : Nat} {c d : Call} (hn : m.calls[n]? = some c) (h : c.Early)
      (h' : d.Ahead) (hp : m.Still m') (ha : m'.atHand = m.atHand)
      (hc : m'.calls = m.calls.set n d) : Moves m m'
  | finds {n k : Nat} {o : Order} {p : Process} (hn : m.calls[n]? = some (.finding o))
      (hk : m.atHand.lookup o.session = some k) (hp : m.processes[k]? = some p)
      (hr : p.retired = false) : Moves m (m.setCall n (.posting o k))
  | starts {n : Nat} {o : Order} (hn : m.calls[n]? = some (.finding o))
      (hr : ∀ k p, m.atHand.lookup o.session = some k → m.processes[k]? = some p →
        p.retired = true) :
      Moves m ((m.startProcess o.session).setCall n (.posting o m.processes.length))
  | returns {n k : Nat} {o : Order} {p : Process} (hn : m.calls[n]? = some (.posting o k))
      (hp : m.processes[k]? = some p) (hr : p.retired = true) : Moves m (m.setCall n (.seeking o))
  | refuses {n k : Nat} {o : Order} {p : Process} (hn : m.calls[n]? = some (.posting o k))
      (hp : m.processes[k]? = some p) :
      Moves m (m.setCall n (.answered (.error (Process.crowded o.session))))
  | accepts {n k : Nat} {o : Order} {p : Process} (hn : m.calls[n]? = some (.posting o k))
      (hp : m.processes[k]? = some p) (hr : p.retired = false) :
      Moves m
        ((m.setProcess k (p.withItems (p.queue.items ++ [⟨n, o.command⟩]))).setCall n .waiting)
  | works {m' : Machine} {k : Nat} {p : Process} {e : Process.Effect}
      (hp : m.processes[k]? = some p) (he : p.Does m.settings e)
      (hps : m'.processes = m.processes.set k e.process) (ha : m'.atHand = m.atHand)
      (hc : m'.calls = answering m.calls e.reply) : Moves m m'
  | drops {m' : Machine} {s : String} {k : Nat} {p : Process} (hk : m.atHand.lookup s = some k)
      (hp : m.processes[k]? = some p) (hr : p.retired = true) (hps : m'.processes = m.processes)
      (ha : m'.atHand = m.atHand.filter (·.1 ≠ s)) (hc : m'.calls = m.calls) : Moves m m'

variable {m m' : Machine}

theorem process?_eq_some {s : String} {k : Nat} {p : Process} (h : m.process? s = some (k, p)) :
    m.atHand.lookup s = some k ∧ m.processes[k]? = some p := by
  obtain ⟨n, hn, h⟩ := Option.bind_eq_some_iff.mp h
  obtain ⟨q, hq, h⟩ := Option.bind_eq_some_iff.mp h
  cases h
  exact ⟨hn, hq⟩

theorem process?_eq {s : String} {k : Nat} {p : Process} (hk : m.atHand.lookup s = some k)
    (hp : m.processes[k]? = some p) : m.process? s = some (k, p) := by
  unfold process?
  rw [hk]
  show (do return (k, ← m.processes[k]?)) = _
  rw [hp]
  rfl

section
variable {α β γ : Type} {r : α → β → Prop} {s : β → γ → Prop} {x : Option α} {y : Option β}
  {z : Option γ} {a : α} {b : β}

theorem rel_self {r : α → α → Prop} (h : ∀ a, r a a) : ∀ x : Option α, Option.Rel r x x
  | none => .none
  | some a => .some (h a)

/-- Lists that are alike but for one item. -/
theorem rel_set {r : α → α → Prop} (hr : ∀ a, r a a) {l : List α} {n : Nat} {a b : α}
    (hl : l[n]? = some a) (h : r a b) (i : Nat) : Option.Rel r l[i]? (l.set n b)[i]? := by
  rw [List.getElem?_set]
  split
  · subst i
    rw [hl, if_pos (List.getElem?_eq_some_iff.mp hl).1]
    exact .some h
  · exact rel_self hr _

theorem rel_imp {r' : α → β → Prop} (h : Option.Rel r x y) (himp : ∀ a b, r a b → r' a b) :
    Option.Rel r' x y := by
  cases h with
  | none => exact .none
  | some h => exact .some (himp _ _ h)

theorem rel_trans {t : α → γ → Prop} (h : Option.Rel r x y) (h' : Option.Rel s y z)
    (htrans : ∀ a b c, r a b → s b c → t a c) : Option.Rel t x z := by
  cases h with
  | none =>
    cases h' with
    | none => exact .none
  | some h =>
    cases h' with
    | some h' => exact .some (htrans _ _ _ h h')

theorem rel_forth (h : Option.Rel r x y) (hx : x = some a) : ∃ b, y = some b ∧ r a b := by
  subst hx
  cases h with
  | some h => exact ⟨_, rfl, h⟩

theorem rel_back (h : Option.Rel r x y) (hy : y = some b) : ∃ a, x = some a ∧ r a b := by
  subst hy
  cases h with
  | some h => exact ⟨_, rfl, h⟩

end

theorem Still.refl (m : Machine) : m.Still m := fun _ => rel_self Process.Alike.refl _

theorem Still.trans {m'' : Machine} (h : m.Still m') (h' : m'.Still m'') : m.Still m'' :=
  fun k => rel_trans (h k) (h' k) fun _ _ _ => Process.Alike.trans

/-- Another state of a process that has the same commands and does the same. -/
theorem still_setProcess {n : Nat} {p p' : Process} (hp : m.processes[n]? = some p)
    (h : p.Alike p') : m.Still (m.setProcess n p') :=
  rel_set Process.Alike.refl hp h

/-- Whether or not a turn is told to stop, nothing else changes. -/
theorem abortTurn_eq (m : Machine) (session : String) :
    ∃ processes, m.abortTurn session = { m with processes } ∧ m.Still { m with processes } := by
  unfold abortTurn
  split
  · rename_i n p hp
    exact ⟨_, rfl, still_setProcess (process?_eq_some hp).2 (Process.alike_abortTurn p)⟩
  · exact ⟨_, rfl, .refl m⟩

theorem stop_eq (m : Machine) (n : Nat) :
    ∃ processes, m.stop n = { m with processes } ∧ m.Still { m with processes } := by
  unfold stop
  split
  · exact ⟨_, rfl, still_setProcess ‹_› (Process.alike_stop _)⟩
  · exact ⟨_, rfl, .refl m⟩

/-- Processes are told to stop one after the other. -/
theorem stopAll_eq (l : List (String × Nat)) (m : Machine) :
    ∃ processes, l.foldl (fun m e => m.stop e.2) m = { m with processes } ∧
      m.Still { m with processes } := by
  induction l generalizing m with
  | nil => exact ⟨_, rfl, .refl m⟩
  | cons e rest ih =>
    obtain ⟨ps, hps, hs⟩ := stop_eq m e.2
    obtain ⟨ps', hps', hs'⟩ := ih (m.stop e.2)
    rw [hps] at hps' hs'
    refine ⟨ps', ?_, hs.trans hs'⟩
    rw [List.foldl_cons, hps, hps']

/-! ### Moves of calls -/

variable {n : Nat} {c : Call}

/-- A call goes on if the engine runs. -/
theorem moves_ifRunning (hn : m.calls[n]? = some c) (h : c.Early) {next : Call}
    (h' : next.Ahead) : m.Moves (m.ifRunning n next) := by
  refine .goes hn h (d := if m.running then next else .answered (.error notRunning)) ?_
    (.refl m) rfl rfl
  split
  · exact h'
  · exact .inr ⟨_, rfl⟩

/-- The turn of the session may be told to stop before a call goes on. -/
theorem arrive_eq (m : Machine) (n : Nat) (o : Order) :
    ∃ processes next, m.arrive n o = ifRunning { m with processes } n next ∧
      m.Still { m with processes } ∧ next.Ahead := by
  obtain ⟨processes, hm, hs⟩ : ∃ processes,
      (if o.command = .close then m.abortTurn o.session else m) = { m with processes } ∧
        m.Still { m with processes } := by
    split
    · exact abortTurn_eq m _
    · exact ⟨_, rfl, .refl m⟩
  unfold arrive
  dsimp only
  rw [hm]
  split
  · exact ⟨processes, _, rfl, hs, .inr ⟨_, rfl⟩⟩
  · refine ⟨processes, _, rfl, hs, ?_⟩
    split
    · exact .inl trivial
    · exact .inr ⟨_, rfl⟩

theorem moves_arrive {o : Order} (hn : m.calls[n]? = some (.arriving o)) :
    m.Moves (m.arrive n o) := by
  obtain ⟨processes, next, heq, hs, hahead⟩ := arrive_eq m n o
  rw [heq]
  refine .goes hn trivial (d := if m.running then next else .answered (.error notRunning)) ?_ hs
    rfl rfl
  split
  · exact hahead
  · exact .inr ⟨_, rfl⟩

theorem moves_findProcess {o : Order} (hn : m.calls[n]? = some (.finding o)) :
    m.Moves (m.findProcess n o) := by
  unfold findProcess
  split
  · rename_i k p hp
    obtain ⟨hk, hp⟩ := process?_eq_some hp
    split
    · refine .starts hn fun k' p' hk' hp' => ?_
      cases hk.symm.trans hk'
      cases hp.symm.trans hp'
      assumption
    · exact .finds hn hk hp (Bool.eq_false_iff.mpr ‹_›)
  · rename_i hnone
    refine .starts hn fun k p hk hp => ?_
    rw [process?_eq hk hp] at hnone
    cases hnone

theorem moves_post {o : Order} {k : Nat} (hn : m.calls[n]? = some (.posting o k))
    (h : m.post n o k = some m') : m.Moves m' := by
  obtain ⟨p, hp, h⟩ := Option.bind_eq_some_iff.mp h
  unfold Process.enqueue BoundedQueue.send? at h
  by_cases hr : p.retired = true
  · rw [if_pos hr] at h
    cases h
    exact .returns hn hp hr
  · rw [if_neg hr] at h
    by_cases hfull : p.queue.items.length < p.queue.capacity
    · rw [if_pos hfull] at h
      cases h
      exact .accepts hn hp (Bool.eq_false_iff.mpr hr)
    · rw [if_neg hfull] at h
      cases h
      exact .refuses hn hp

/-- A call takes its turn. -/
theorem moves_stepCall (h : m.stepCall n = some m') : m.Moves m' := by
  obtain ⟨c, hn, h⟩ := Option.bind_eq_some_iff.mp h
  cases c with
  | starting flow =>
    cases h
    exact moves_ifRunning hn trivial (.inl trivial)
  | opening rest =>
    rcases rest with (f | session) | ⟨a, next⟩
    · cases h
      exact .goes hn trivial (.inr ⟨_, rfl⟩) (.refl m) rfl rfl
    · cases h
      exact .goes hn trivial (d := .arriving ⟨session, .start⟩) (.inl trivial) (.refl m) rfl rfl
    · cases h
      exact .goes hn trivial (d := .opening _) (.inl trivial) (.refl m) rfl rfl
  | arriving o =>
    cases h
    exact moves_arrive hn
  | seeking o =>
    cases h
    exact moves_ifRunning hn trivial (.inl trivial)
  | finding o =>
    cases h
    exact moves_findProcess hn
  | posting o k => exact moves_post hn h
  | waiting => cases h
  | answered r => cases h

/-! ### Moves of processes and of the sweeper -/

/-- What a step of a process comes to. -/
theorem stepProcess_eq {k : Nat} {p : Process} {peer : Http.Attempt} {heed : Bool}
    {e : Process.Effect} (hp : m.processes[k]? = some p)
    (he : p.step m.settings m.world m.time peer heed = some e) :
    m.stepProcess k peer heed = some { m with
      world := e.world
      processes := m.processes.set k e.process
      calls := answering m.calls e.reply
      notices := if e.retires then (m.notice p.session).notices else m.notices } := by
  have hnotice (world : World) (processes : List Process) (calls : List Call) :
      notice { m with world, processes, calls } p.session =
        { m with world, processes, calls, notices := (m.notice p.session).notices } := by
    unfold notice
    dsimp only
    split <;> rfl
  have hreply : ({ m with world := e.world }.setProcess k e.process).reply e.reply = { m with
      world := e.world
      processes := m.processes.set k e.process
      calls := answering m.calls e.reply } := by
    cases e.reply <;> rfl
  simp only [stepProcess, hp, he, Option.bind_eq_bind, Option.bind_some, Option.pure_def, hreply]
  split
  · exact congrArg some (hnotice _ _ _)
  · rfl

/-- A process takes its turn. -/
theorem moves_stepProcess {k : Nat} {peer : Http.Attempt} {heed : Bool}
    (h : m.stepProcess k peer heed = some m') : m.Moves m' := by
  obtain ⟨p, hp, h'⟩ := Option.bind_eq_some_iff.mp h
  obtain ⟨e, he, -⟩ := Option.bind_eq_some_iff.mp h'
  cases (stepProcess_eq hp he).symm.trans h
  exact .works hp (Process.does_of_step he) rfl rfl rfl

/-- The sweeper takes its turn. -/
theorem moves_sweep {heed : Bool} (h : m.sweep heed = some m') : m.Moves m' := by
  unfold sweep at h
  split at h
  · cases h
  obtain ⟨⟨session, notices⟩, -, h⟩ := Option.bind_eq_some_iff.mp h
  dsimp only at h
  split at h
  · rename_i k p hp
    obtain ⟨hk, hp⟩ := process?_eq_some hp
    cases h
    split
    · exact .drops hk hp ‹_› rfl rfl rfl
    · exact .rests (.refl m) rfl rfl
  · cases h
    exact .rests (.refl m) rfl rfl

/-- **Moves.** Whatever happens to an engine is one of the moves. -/
theorem after_moves (m : Machine) (h : Happening) : m.Moves (m.after h) := by
  cases h with
  | submit r =>
    cases r with
    | start flow => exact .submits (c := .starting flow) trivial (.refl m) rfl rfl
    | order o => exact .submits (c := .arriving o) trivial (.refl m) rfl rfl
  | step c =>
    show m.Moves ((m.step c).getD m)
    cases hstep : m.step c with
    | none => exact .rests (.refl m) rfl rfl
    | some m' =>
      cases c with
      | call n => exact moves_stepCall hstep
      | process k peer heed => exact moves_stepProcess hstep
      | sweep heed => exact moves_sweep hstep
  | shutDown =>
    show m.Moves m.shutDown
    unfold shutDown
    split
    · obtain ⟨ps, hps, hs⟩ := stopAll_eq m.atHand { m with running := false, wasShut := true }
      rw [hps]
      exact .rests hs rfl rfl
    · exact .rests (.refl m) rfl rfl
  | launch | pass | others => exact .rests (.refl m) rfl rfl

/-! ### What a step leaves alone -/

/-- The same settings at the same time, running or shut down as before. -/
structure Frame (m m' : Machine) : Prop where
  settings : m'.settings = m.settings
  running : m'.running = m.running
  wasShut : m'.wasShut = m.wasShut
  time : m'.time = m.time

theorem Frame.refl (m : Machine) : m.Frame m := ⟨rfl, rfl, rfl, rfl⟩

theorem frame_stepCall (h : m.stepCall n = some m') : m.Frame m' := by
  obtain ⟨c, hn, h⟩ := Option.bind_eq_some_iff.mp h
  cases c with
  | starting | seeking => cases h; exact ⟨rfl, rfl, rfl, rfl⟩
  | opening rest =>
    rcases rest with (f | session) | ⟨a, next⟩ <;> cases h <;> exact ⟨rfl, rfl, rfl, rfl⟩
  | arriving o =>
    cases h
    obtain ⟨ps, next, heq, -⟩ := arrive_eq m n o
    rw [heq]
    exact ⟨rfl, rfl, rfl, rfl⟩
  | finding o =>
    cases h
    unfold findProcess
    split
    · split <;> exact ⟨rfl, rfl, rfl, rfl⟩
    · exact ⟨rfl, rfl, rfl, rfl⟩
  | posting o k =>
    obtain ⟨p, hp, h⟩ := Option.bind_eq_some_iff.mp h
    split at h <;> cases h <;> exact ⟨rfl, rfl, rfl, rfl⟩
  | waiting | answered => cases h

theorem frame_stepProcess {peer : Http.Attempt} {heed : Bool}
    (h : m.stepProcess n peer heed = some m') : m.Frame m' := by
  obtain ⟨p, hp, h'⟩ := Option.bind_eq_some_iff.mp h
  obtain ⟨e, he, -⟩ := Option.bind_eq_some_iff.mp h'
  cases (stepProcess_eq hp he).symm.trans h
  exact ⟨rfl, rfl, rfl, rfl⟩

theorem frame_sweep {heed : Bool} (h : m.sweep heed = some m') : m.Frame m' := by
  unfold sweep at h
  split at h
  · cases h
  obtain ⟨⟨session, notices⟩, -, h⟩ := Option.bind_eq_some_iff.mp h
  dsimp only at h
  split at h
  · cases h
    split <;> exact ⟨rfl, rfl, rfl, rfl⟩
  · cases h
    exact ⟨rfl, rfl, rfl, rfl⟩

theorem frame_step (m : Machine) (c : Choice) : m.Frame (m.after (.step c)) := by
  show m.Frame ((m.step c).getD m)
  cases hstep : m.step c with
  | none => exact .refl m
  | some m' =>
    cases c with
    | call n => exact frame_stepCall hstep
    | process k peer heed => exact frame_stepProcess hstep
    | sweep heed => exact frame_sweep hstep

theorem time_shutDown (m : Machine) : m.shutDown.time = m.time := by
  unfold shutDown
  split
  · obtain ⟨ps, hps, -⟩ := stopAll_eq m.atHand { m with running := false, wasShut := true }
    rw [hps]
  · rfl

/-- Time does not go back. -/
theorem time_after (m : Machine) (h : Happening) : m.time ≤ (m.after h).time := by
  cases h with
  | submit | launch | others => exact Nat.le_refl _
  | step c => exact Nat.le_of_eq (frame_step m c).time.symm
  | shutDown => exact Nat.le_of_eq (time_shutDown m).symm
  | pass d => exact Nat.le_add_right _ _

/-! ### Lists with one item in place of another -/

section
variable {α : Type} {l : List α} {i n : Nat} {a b x : α}

theorem of_set (h : (l.set n a)[i]? = some x) (hne : x ≠ a) : l[i]? = some x ∧ i ≠ n := by
  rw [List.getElem?_set] at h
  split at h
  · split at h
    · exact absurd (Option.some.inj h).symm hne
    · cases h
  · exact ⟨h, Ne.symm ‹_›⟩

theorem set_of (h : l[i]? = some x) (hne : i ≠ n) : (l.set n a)[i]? = some x := by
  rw [List.getElem?_set, if_neg (Ne.symm hne), h]

theorem set_self (h : l[n]? = some b) : (l.set n a)[n]? = some a := by
  rw [List.getElem?_set, if_pos rfl, if_pos (List.getElem?_eq_some_iff.mp h).1]

end

/-! ### What becomes of a process and of a call -/

/-- What becomes of a process by a move: what it does, or one more command. -/
inductive Turns (m m' : Machine) (p : Process) : Process → Prop
  | alike {p' : Process} (h : p.Alike p') : Turns m m' p p'
  | gets (x : Pending) (hr : p.retired = false) :
      Turns m m' p (p.withItems (p.queue.items ++ [x]))
  | does {e : Process.Effect} (he : p.Does m.settings e)
      (hc : m'.calls = answering m.calls e.reply) :
      Turns m m' p e.process

/-- What becomes of a call by a move. -/
inductive Comes (m m' : Machine) (n : Nat) : Call → Call → Prop
  | same (c : Call) : Comes m m' n c c
  | ahead {c d : Call} (h : c.Early) (h' : d.Ahead) : Comes m m' n c d
  | found (o : Order) (k : Nat) : Comes m m' n (.finding o) (.posting o k)
  | returned (o : Order) (k : Nat) : Comes m m' n (.posting o k) (.seeking o)
  | refused (o : Order) (k : Nat) (r : Outcome Turn.Report) :
      Comes m m' n (.posting o k) (.answered r)
  | accepted {o : Order} {k : Nat} {p : Process} (hp : m.processes[k]? = some p)
      (hr : p.retired = false)
      (hp' : m'.processes[k]? = some (p.withItems (p.queue.items ++ [⟨n, o.command⟩]))) :
      Comes m m' n (.posting o k) .waiting
  | answered (c : Call) {k : Nat} {p : Process} {e : Process.Effect} {r : Outcome Turn.Report}
      (hp : m.processes[k]? = some p) (he : p.Does m.settings e) (hr : e.reply = some (n, r)) :
      Comes m m' n c (.answered r)

variable {k : Nat} {p : Process}

theorem Still.process (h : m.Still m') (hp : m.processes[k]? = some p) :
    ∃ p', m'.processes[k]? = some p' ∧ m.Turns m' p p' := by
  obtain ⟨p', hp', halike⟩ := rel_forth (h k) hp
  exact ⟨p', hp', .alike halike⟩

theorem process_same (h : m'.processes = m.processes) (hp : m.processes[k]? = some p) :
    ∃ p', m'.processes[k]? = some p' ∧ m.Turns m' p p' :=
  ⟨p, h ▸ hp, .alike (.refl p)⟩

theorem process_set {j : Nat} {q q' : Process} (hq : m.processes[j]? = some q)
    (hps : m'.processes = m.processes.set j q') (hp : m.processes[k]? = some p)
    (ht : m.Turns m' q q') : ∃ p', m'.processes[k]? = some p' ∧ m.Turns m' p p' := by
  by_cases hk : k = j
  · subst hk
    cases hq.symm.trans hp
    exact ⟨q', hps ▸ set_self hq, ht⟩
  · exact ⟨p, hps ▸ set_of hp hk, .alike (.refl p)⟩

/-- What becomes of a process by a move. -/
theorem Moves.process (h : m.Moves m') (hp : m.processes[k]? = some p) :
    ∃ p', m'.processes[k]? = some p' ∧ m.Turns m' p p' := by
  cases h with
  | rests hs | submits _ hs | goes _ _ _ hs => exact hs.process hp
  | finds | returns | refuses => exact process_same rfl hp
  | starts =>
    refine ⟨p, ?_, .alike (.refl p)⟩
    exact (List.getElem?_append_left (List.getElem?_eq_some_iff.mp hp).1).trans hp
  | accepts hn hq hr => exact process_set hq rfl hp (.gets _ hr)
  | works hq he hps ha hc => exact process_set hq hps hp (.does he hc)
  | drops hk hq hr hps => exact process_same hps hp

theorem call_same (h : m'.calls = m.calls) (hn : m.calls[n]? = some c) :
    ∃ d, m'.calls[n]? = some d ∧ m.Comes m' n c d :=
  ⟨c, h ▸ hn, .same c⟩

theorem call_set {i : Nat} {d d' : Call} (hi : m.calls[i]? = some d)
    (hc : m'.calls = m.calls.set i d') (hn : m.calls[n]? = some c) (hd : m.Comes m' i d d') :
    ∃ c', m'.calls[n]? = some c' ∧ m.Comes m' n c c' := by
  by_cases he : n = i
  · subst he
    cases hi.symm.trans hn
    exact ⟨d', hc ▸ set_self hi, hd⟩
  · exact ⟨c, hc ▸ set_of hn he, .same c⟩

/-- What becomes of a call by a move. -/
theorem Moves.call (h : m.Moves m') (hn : m.calls[n]? = some c) :
    ∃ d, m'.calls[n]? = some d ∧ m.Comes m' n c d := by
  cases h with
  | rests hs ha hc | drops hk hp hr hps ha hc => exact call_same hc hn
  | submits hearly hs ha hc =>
    refine ⟨c, ?_, .same c⟩
    rw [hc, List.getElem?_append_left (List.getElem?_eq_some_iff.mp hn).1, hn]
  | goes hi hearly hahead hs ha hc => exact call_set hi hc hn (.ahead hearly hahead)
  | finds hi => exact call_set hi rfl hn (.found _ _)
  | starts hi => exact call_set hi rfl hn (.found _ _)
  | returns hi => exact call_set hi rfl hn (.returned _ _)
  | refuses hi => exact call_set hi rfl hn (.refused _ _ _)
  | accepts hi hp hr => exact call_set hi rfl hn (.accepted hp hr (set_self hp))
  | @works _ k p e hp he hps ha hc =>
    cases hreply : e.reply with
    | none =>
      rw [hreply] at hc
      exact call_same hc hn
    | some x =>
      obtain ⟨i, r⟩ := x
      rw [hreply] at hc
      by_cases hi : n = i
      · subst hi
        exact ⟨.answered r, hc ▸ set_self hn, .answered c hp he hreply⟩
      · exact ⟨c, hc ▸ set_of hn hi, .same c⟩

end Machine

end Dialogue
