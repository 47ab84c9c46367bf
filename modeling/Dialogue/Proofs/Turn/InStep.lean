import Dialogue.Proofs.Program.InStep
import Dialogue.Proofs.Turn.Course

/-! # Turns in step

What happens to a session depends on identities of messages and on times only where a node asks for
opening hours. So two turns that have the same session in hand, but for these, go on alike as long
as their circumstances are alike and no schedule tells their times apart: they run the same nodes,
make the same calls, and keep the same session, but for identities and times.

* `bare`: what is left of messages, sessions, calls and signals without identities and times.
* `Abreast`: two worlds in which the same has happened to a session.
* `level_visit`: nodes give the same in both.
* `commit_inStep`, `stop_inStep`, `follow_inStep`, `conclude_inStep`, `advance_inStep`: the parts of
  a step. -/

namespace Dialogue

/-! ### Without identities and times -/

/-- The message without its identity and its time. -/
def Message.bare (m : Message) : Message := { m with id := "", timestamp := 0 }

/-- The session without the identities and the times of its messages, and without the time at which
it was kept. -/
def Session.bare (s : Session) : Session :=
  { s with messages := s.messages.map Message.bare, updateTime := 0 }

theorem Session.id_eq_of_bare {s t : Session} (h : s.bare = t.bare) : s.id = t.id := by
  have hid := congrArg Session.id h
  exact hid

theorem Session.status_eq_of_bare {s t : Session} (h : s.bare = t.bare) : s.status = t.status := by
  have hstatus := congrArg Session.status h
  exact hstatus

theorem Session.vars_eq_of_bare {s t : Session} (h : s.bare = t.bare) : s.vars = t.vars := by
  have hvars := congrArg Session.vars h
  exact hvars

/-- The call without the identity and the time of its message. -/
def Delivery.bare : Delivery → Delivery
  | .append session m => .append session m.bare
  | d => d

/-- The content of an event without its time. -/
def Event.Content.bare : Event.Content → Event.Content
  | .node (.running _) => .node (.running 0)
  | .node (.succeeded _) => .node (.succeeded 0)
  | .node (.stopped _) => .node (.stopped 0)
  | c => c

/-- The signal without its time. -/
def Signal.bare : Signal → Signal
  | .event e => .event { e with content := e.content.bare }
  | .log l => .log { l with time := 0 }

namespace World

/-- Whatever happened to the session since two worlds happened in both alike, but for identities and
times. The schedules are those of the first one still. -/
structure Abreast (sid : String) (w₀ v₀ w v : World) : Prop where
  registered : w.store.registered = true ∧ v.store.registered = true
  rows : ∃ s t : Session, s.bare = t.bare ∧ w.store.row? sid = some (.ofSession s) ∧
    v.store.row? sid = some (.ofSession t)
  schedules : w.store.schedules = w₀.store.schedules ∧ v.store.schedules = w₀.store.schedules
  deliveries : ∃ d d', w.deliveries = w₀.deliveries ++ d ∧ v.deliveries = v₀.deliveries ++ d' ∧
    d.map Delivery.bare = d'.map Delivery.bare
  signals : ∃ x x', w.signals = w₀.signals ++ x ∧ v.signals = v₀.signals ++ x' ∧
    x.map Signal.bare = x'.map Signal.bare

namespace Abreast

variable {sid : String} {w₀ v₀ w v : World}

theorem timed (h : Abreast sid w₀ v₀ w v) (t t' : Instant) :
    Abreast sid w₀ v₀ (w.timed t) (v.timed t') :=
  ⟨h.registered, h.rows, h.schedules, h.deliveries, h.signals⟩

theorem fresh (h : Abreast sid w₀ v₀ w v) (i : Identity) (m m' : Moment) :
    Abreast sid w₀ v₀ (w.reply m (.fresh i)).1 (v.reply m' (.fresh i)).1 := by
  cases i <;> exact ⟨h.registered, h.rows, h.schedules, h.deliveries, h.signals⟩

theorem emit (h : Abreast sid w₀ v₀ w v) (m m' : Moment) {x y : Signal} (hxy : x.bare = y.bare) :
    Abreast sid w₀ v₀ (w.reply m (.emit x)).1 (v.reply m' (.emit y)).1 := by
  obtain ⟨events, logs, hw⟩ := exists_keep_eq w.store x
  obtain ⟨events', logs', hv⟩ := exists_keep_eq v.store y
  obtain ⟨xs, ys, hx, hy, hxs⟩ := h.signals
  simp only [reply, answer, World.timed, hw, hv]
  refine ⟨h.registered, h.rows, h.schedules, h.deliveries, xs ++ [x], ys ++ [y], ?_, ?_, ?_⟩
  · rw [hx, List.append_assoc]
  · rw [hy, List.append_assoc]
  · rw [List.map_append, List.map_append, hxs, List.map_singleton, List.map_singleton, hxy]

theorem deliver (h : Abreast sid w₀ v₀ w v) (m m' : Moment) {x y : Delivery}
    (hxy : x.bare = y.bare) :
    Abreast sid w₀ v₀ (w.reply m (.deliver x)).1 (v.reply m' (.deliver y)).1 := by
  obtain ⟨xs, ys, hx, hy, hxs⟩ := h.deliveries
  simp only [reply, answer, World.timed]
  refine ⟨h.registered, h.rows, h.schedules, ⟨xs ++ [x], ys ++ [y], ?_, ?_, ?_⟩, h.signals⟩
  · rw [hx, List.append_assoc]
  · rw [hy, List.append_assoc]
  · rw [List.map_append, List.map_append, hxs, List.map_singleton, List.map_singleton, hxy]

/-- Keeping the session succeeds in both. -/
theorem save (h : Abreast sid w₀ v₀ w v) (m m' : Moment) {s t : Session} (hs : s.id = sid)
    (hst : s.bare = t.bare) :
    (w.reply m (.saveSession s)).2 = .ok () ∧ (v.reply m' (.saveSession t)).2 = .ok () ∧
      Abreast sid w₀ v₀ (w.reply m (.saveSession s)).1 (v.reply m' (.saveSession t)).1 := by
  obtain ⟨x, y, -, hx, hy⟩ := h.rows
  have ht : t.id = sid := (Session.id_eq_of_bare hst).symm.trans hs
  rw [← hs] at hx
  rw [← ht] at hy
  obtain ⟨sessions, hsave, hrow⟩ := Store.saveSession_eq h.registered.1 hx
  obtain ⟨sessions', hsave', hrow'⟩ := Store.saveSession_eq h.registered.2 hy
  simp only [reply, answer, World.timed, hsave, hsave', change]
  refine ⟨trivial, trivial, h.registered, ⟨s, t, hst, ?_, ?_⟩, h.schedules, h.deliveries,
    h.signals⟩
  · exact (hrow sid).trans (if_pos hs.symm)
  · exact (hrow' sid).trans (if_pos ht.symm)

/-- The status of the session is the same in both. -/
theorem status (h : Abreast sid w₀ v₀ w v) : ∃ x,
    w.store.sessionStatus sid = .ok x ∧ v.store.sessionStatus sid = .ok x := by
  obtain ⟨s, t, hst, hs, ht⟩ := h.rows
  refine ⟨s.status, ?_, ?_⟩
  · rw [Store.sessionStatus_eq h.registered.1 hs, SessionRow.status?_ofSession]
  · rw [Store.sessionStatus_eq h.registered.2 ht, SessionRow.status?_ofSession]
    rw [Session.status_eq_of_bare hst]

end Abreast

end World

namespace Turn

open Program Procedure World

/-! ### Moments of the same kind -/

namespace Scene

/-- A node of the flow may ask for the opening hours of that schedule. -/
def Consults (sc : Scene) (store : Store) (x : Schedule) : Prop :=
  ∃ n ∈ sc.flow.nodes, ∃ id days offset, n.action = .schedule id days offset ∧
    match id.filter (!·.isEmpty) with
    | some id => store.loadSchedule id = .ok x
    | none => x = ⟨"", "", offset, days⟩

/-- The circumstances are the same, and no schedule that matters tells the times apart. -/
structure Same (sc : Scene) (store : Store) (m m' : Moment) : Prop where
  circumstance : m.circumstance = m'.circumstance
  hours : ∀ x, sc.Consults store x →
    x.isOpen m.time sc.settings.engine.offset = x.isOpen m'.time sc.settings.engine.offset

/-- The program comes to the same result in two worlds that are abreast, and they stay so. -/
def Level (sc : Scene) (sid : String) (w₀ v₀ : World) {α : Type} (p : Program α) : Prop :=
  ∀ w v : World, Abreast sid w₀ v₀ w v →
    p.InStep (sc.Same w₀.store) (fun a b w v => a = b ∧ Abreast sid w₀ v₀ w v) p w v

variable {sc : Scene} {sid : String} {w₀ v₀ w v : World} {α β : Type}

theorem level_done (a : α) : sc.Level sid w₀ v₀ (.done a) := fun _ _ h => ⟨rfl, h⟩

theorem level_bind {p : Program β} {f : β → Program α} (hp : sc.Level sid w₀ v₀ p)
    (hf : ∀ b, sc.Level sid w₀ v₀ (f b)) : sc.Level sid w₀ v₀ (p.bind f) := by
  intro w v h
  refine inStep_bind ((hp w v h).imp fun b b' w v hb => ?_)
  obtain ⟨rfl, h⟩ := hb
  exact hf b w v h

theorem level_log {node text : String} {f : Unit → Program α}
    (hf : sc.Level sid w₀ v₀ (f ())) : sc.Level sid w₀ v₀ (sc.log node text >>= f) := by
  intro w v h m m' _ k k' _
  exact hf _ _ ((h.timed m.time m'.time).emit k k' rfl)

theorem level_isAborted : sc.Level sid w₀ v₀ isAborted := by
  intro w v h m m' hm
  refine ⟨?_, h.timed _ _⟩
  exact congrArg Circumstance.aborted hm.circumstance

theorem level_wait (x : Wait) : sc.Level sid w₀ v₀ (wait x) := by
  intro w v h m m' hm
  refine ⟨?_, h.timed _ _⟩
  exact congrArg (fun c => !c.aborted) hm.circumstance

theorem level_exchange (r : Http.Request) : sc.Level sid w₀ v₀ (question (.exchange r)) := by
  intro w v h m m' hm
  refine ⟨?_, h.timed _ _⟩
  exact congrArg (fun c => if c.aborted then none else some c.peer) hm.circumstance

/-! ### Nodes -/

variable {node : String} {vars : Variables}

theorem level_condition (rules : List Condition) (hasElse : Bool) :
    sc.Level sid w₀ v₀ (sc.visitCondition node rules hasElse vars) := by
  unfold visitCondition
  split
  · exact level_log (level_done _)
  · dsimp only
    split
    · exact level_log (level_done _)
    · exact level_done _

/-- The answers of the schedules are the same. -/
theorem loadSchedule_eq (h : Abreast sid w₀ v₀ w v) (hw₀ : w₀.store.registered = true)
    (id : String) : w.store.loadSchedule id = w₀.store.loadSchedule id ∧
      v.store.loadSchedule id = w₀.store.loadSchedule id := by
  obtain ⟨hw, hv⟩ := h.registered
  obtain ⟨hws, hvs⟩ := h.schedules
  simp only [Store.loadSchedule, Store.access, hw, hv, hw₀, hws, hvs, and_self]

/-- The time is asked, and nothing that matters depends on it but whether a schedule is open. -/
theorem level_hours {x : Schedule} (hx : sc.Consults w₀.store x) :
    sc.Level sid w₀ v₀ (do
      let isOpen := x.isOpen (← instant) sc.settings.engine.offset
      sc.log node ("schedule '" ++ x.id ++ "' is " ++ if isOpen then "open" else "closed")
      return Visit.via vars (.branch (.fixed (if isOpen then .inside else .outside)))) := by
  let told (b : Bool) : Program Visit := do
    sc.log node ("schedule '" ++ x.id ++ "' is " ++ if b then "open" else "closed")
    return .via vars (.branch (.fixed (if b then .inside else .outside)))
  have htold (b : Bool) : sc.Level sid w₀ v₀ (told b) := level_log (level_done _)
  intro w v h m m' hm
  show InStep _ _ (told (x.isOpen m.time sc.settings.engine.offset))
    (told (x.isOpen m'.time sc.settings.engine.offset)) _ _
  rw [hm.hours x hx]
  exact htold _ _ _ (h.timed m.time m'.time)

theorem level_schedule (hw₀ : w₀.store.registered = true) {n : Flow.Node}
    (hn : n ∈ sc.flow.nodes) {id : Option String} {days : Days} {offset : Option Int}
    (ha : n.action = .schedule id days offset) :
    sc.Level sid w₀ v₀ (sc.visitSchedule node id days offset vars) := by
  unfold visitSchedule scheduleOf
  cases hid : id.filter (!·.isEmpty) with
  | some i =>
    intro w v h m m' hm
    obtain ⟨hw, hv⟩ := loadSchedule_eq h hw₀ i
    show InStep _ _ (match w.store.loadSchedule i with | .error f => _ | .ok x => _)
      (match v.store.loadSchedule i with | .error f => _ | .ok x => _) _ _
    rw [hw, hv]
    cases hx : w₀.store.loadSchedule i with
    | error f => exact level_done _ _ _ (h.timed _ _)
    | ok x =>
      have hconsults : sc.Consults w₀.store x :=
        ⟨n, hn, id, days, offset, ha, by rw [hid]; exact hx⟩
      exact level_hours hconsults _ _ (h.timed _ _)
  | none => exact level_hours ⟨n, hn, id, days, offset, ha, by rw [hid]⟩

theorem level_delay (amount : Json) : sc.Level sid w₀ v₀ (sc.visitDelay node amount vars) := by
  have hwait (t : Nat) : sc.Level sid w₀ v₀ (do
      if ← wait (.delay t) then return Visit.via vars (.next .plain) else return Visit.cut) := by
    refine level_bind (level_wait _) fun b => ?_
    split <;> exact level_done _
  unfold visitDelay
  split
  · exact level_done _
  · dsimp only
    split
    · exact level_log (level_log (hwait _))
    · exact level_log (hwait _)

theorem level_script (body : String) : sc.Level sid w₀ v₀ (sc.visitScript node body vars) := by
  unfold visitScript
  refine level_bind (level_wait _) fun b => ?_
  split
  · split
    · exact level_done _
    · exact level_log (level_done _)
  · exact level_done _

theorem level_callFailed (fault : Http.Fault) :
    sc.Level sid w₀ v₀ (sc.callFailed node fault vars) := by
  refine level_log ?_
  dsimp only
  split <;> exact level_done _

theorem level_callAnswered (call : Http.Call) (body : Json) :
    sc.Level sid w₀ v₀ (sc.callAnswered node call body vars) := by
  have hlogs (l : List Http.Mapping) : sc.Level sid w₀ v₀
      (l.forM fun m => sc.log node ("mapping '" ++ m.path ++ "' found nothing")) := by
    induction l with
    | nil => exact level_done _
    | cons m rest ih => exact level_log ih
  exact level_log (level_bind (hlogs _) fun _ => level_done _)

theorem level_call (call : Http.Call) : sc.Level sid w₀ v₀ (sc.visitCall node call vars) := by
  unfold visitCall
  split
  · exact level_callFailed _
  · refine level_bind (level_exchange _) fun attempt => ?_
    split
    · exact level_done _
    · split
      · exact level_callFailed _
      · exact level_callAnswered _ _

theorem level_run (hw₀ : w₀.store.registered = true) {n : Flow.Node} (hn : n ∈ sc.flow.nodes) :
    sc.Level sid w₀ v₀ (sc.run node n.action vars) := by
  cases ha : n.action with
  | setValue name value => exact level_log (level_done _)
  | condition rules hasElse => exact level_condition _ _
  | script body => exact level_script _
  | request call => exact level_call _
  | delay amount => exact level_delay _
  | schedule id days offset => exact level_schedule hw₀ hn ha
  | _ => exact level_done _

theorem level_clicked (name : Option String) (id label : String) :
    sc.Level sid w₀ v₀ (sc.clicked node name id label vars) :=
  level_log (level_done _)

theorem level_resume (a : Action) (reply : Reply) :
    sc.Level sid w₀ v₀ (sc.resume node a reply vars) := by
  unfold resume
  split
  · exact level_done _
  · exact level_done _
  · exact level_clicked _ _ _
  · split
    · exact level_clicked _ _ _
    · exact level_done _
  · exact level_done _

/-- **Nodes** give the same in worlds that are abreast. -/
theorem level_visit (hw₀ : w₀.store.registered = true) {n : Flow.Node} (hn : n ∈ sc.flow.nodes)
    (st : Step) : sc.Level sid w₀ v₀ (sc.visit n st vars) := by
  unfold visit
  refine level_bind level_isAborted fun b => ?_
  split
  · exact level_done _
  · cases st with
    | run node => exact level_run hw₀ hn
    | resume node reply => exact level_resume _ _

end Scene

/-! ### Steps -/

theorem bare_haltedBy (s : Session) (h : Halt) (m : Message) :
    (haltedBy s h m).bare = haltedBy s.bare h m.bare := by
  simp only [haltedBy, Session.bare, List.map_append, List.map_singleton]

theorem bare_after (s : Session) (node : String) (vars : Variables) (spoken : List Message)
    (r : Route) :
    (after s node vars spoken r).bare = after s.bare node vars (spoken.map Message.bare) r := by
  cases r <;> simp only [after, Session.bare, List.map_append]

/-- Two reports on the same session, but for identities and times. The first turn ran some more
nodes. -/
structure Report.Alongside (more : Nat) (r r' : Report) : Prop where
  session : r.session.bare = r'.session.bare
  ending : r.ending = r'.ending
  steps : r.steps = r'.steps + more

/-- Two steps that go on alike. -/
inductive Progress.Alongside (more : Nat) : Progress → Progress → Prop
  | on {s t : Session} {next : String} (h : s.bare = t.bare) :
      Alongside more (.on s next) (.on t next)
  | done {r r' : Report} (h : r.Alongside more r') : Alongside more (.done r) (.done r')

namespace Scene

variable {sc : Scene} {sid : String} {w₀ v₀ w v : World}

theorem message_inStep (h : Abreast sid w₀ v₀ w v) (u : Utterance) :
    (botMessage u).InStep (sc.Same w₀.store)
      (fun a b w v => a.bare = b.bare ∧ Abreast sid w₀ v₀ w v) (botMessage u) w v := by
  intro m m' _ k k' _
  exact ⟨rfl, (h.fresh .message m m').timed k.time k'.time⟩

theorem messages_inStep (h : Abreast sid w₀ v₀ w v) (us : List Utterance) :
    (us.mapM botMessage).InStep (sc.Same w₀.store)
      (fun a b w v => a.map Message.bare = b.map Message.bare ∧ Abreast sid w₀ v₀ w v)
      (us.mapM botMessage) w v := by
  induction us generalizing w v with
  | nil => exact ⟨rfl, h⟩
  | cons u rest ih =>
    rw [List.mapM_cons]
    refine inStep_bind ((message_inStep h u).imp fun a b w v ⟨hab, h⟩ => ?_)
    refine inStep_bind ((ih h).imp fun as bs w v ⟨habs, h⟩ => ⟨?_, h⟩)
    rw [List.map_cons, List.map_cons, hab, habs]

theorem emit_inStep {node : String} {c c' : Event.Content} (hc : c.bare = c'.bare)
    (h : Abreast sid w₀ v₀ w v) :
    (emit sc.session node c).InStep (sc.Same w₀.store) (fun _ _ => Abreast sid w₀ v₀)
      (emit sc.session node c') w v :=
  fun m m' _ => h.emit m m' (congrArg (fun c => Signal.event ⟨sc.session, node, c⟩) hc)

theorem emitNode_inStep {node : String} {e : Millis → NodeEvent}
    (he : ∀ t t', (Event.Content.node (e t)).bare = (Event.Content.node (e t')).bare)
    (h : Abreast sid w₀ v₀ w v) :
    (emitNode sc.session node e).InStep (sc.Same w₀.store) (fun _ _ => Abreast sid w₀ v₀)
      (emitNode sc.session node e) w v :=
  fun m m' _ => emit_inStep (he m.time.millis m'.time.millis) (h.timed _ _)

theorem deliver_inStep {d d' : Delivery} (hd : d.bare = d'.bare) (h : Abreast sid w₀ v₀ w v) :
    (deliver d).InStep (sc.Same w₀.store) (fun _ _ => Abreast sid w₀ v₀) (deliver d') w v :=
  fun m m' _ => h.deliver m m' hd

theorem append_inStep {id id' : String} (hid : id = id') {spoken spoken' : List Message}
    (hs : spoken.map Message.bare = spoken'.map Message.bare) (h : Abreast sid w₀ v₀ w v) :
    (spoken.forM fun m => deliver (.append id m) : Program Unit).InStep (sc.Same w₀.store)
      (fun _ _ => Abreast sid w₀ v₀)
      (spoken'.forM fun m => deliver (.append id' m) : Program Unit) w v := by
  subst hid
  induction spoken generalizing spoken' w v with
  | nil =>
    cases spoken' with
    | nil => exact h
    | cons m rest => cases hs
  | cons m rest ih =>
    cases spoken' with
    | nil => cases hs
    | cons m' rest' =>
      obtain ⟨hm, hrest⟩ := List.cons.inj hs
      have hd : (Delivery.append id m).bare = (Delivery.append id m').bare :=
        congrArg (Delivery.append id) hm
      show InStep _ _ (deliver (.append id m) >>= fun _ => rest.forM _)
        (deliver (.append id m') >>= fun _ => rest'.forM _) w v
      exact inStep_bind ((deliver_inStep hd h).imp fun _ _ _ _ h => ih hrest h)

theorem status_inStep {id id' : String} (hid : id = sid) (hid' : id' = sid)
    (h : Abreast sid w₀ v₀ w v) :
    (sessionStatus id).run.InStep (sc.Same w₀.store)
      (Agree fun a b w v => a = b ∧ Abreast sid w₀ v₀ w v) (sessionStatus id').run w v := by
  subst hid hid'
  intro m m' _
  obtain ⟨x, hw, hv⟩ := h.status
  show Agree _ (w.store.sessionStatus id') (v.store.sessionStatus id') _ _
  rw [hw, hv]
  exact ⟨rfl, h.timed _ _⟩

theorem save_inStep {s t : Session} (hs : s.id = sid) (hst : s.bare = t.bare)
    (h : Abreast sid w₀ v₀ w v) :
    (saveSession s).run.InStep (sc.Same w₀.store) (Agree fun _ _ => Abreast sid w₀ v₀)
      (saveSession t).run w v := by
  intro m m' _
  obtain ⟨hw, hv, h⟩ := h.save m m' hs hst
  show Agree _ (w.reply m (.saveSession s)).2 (v.reply m' (.saveSession t)).2 _ _
  rw [hw, hv]
  exact h

/-- Keeping a session and telling of it, or nothing at all. -/
theorem commit_inStep {s t : Session} (hs : s.id = sid) (hst : s.bare = t.bare)
    {spoken spoken' : List Message} (hspoken : spoken.map Message.bare = spoken'.map Message.bare)
    (delta : Variables) (h : Abreast sid w₀ v₀ w v) :
    (commit s spoken delta).run.InStep (sc.Same w₀.store)
      (Agree fun a b w v => (a.map Session.bare = b.map Session.bare ∧
        ∀ x, a = some x → x.id = sid) ∧ Abreast sid w₀ v₀ w v)
      (commit t spoken' delta).run w v := by
  have hid := Session.id_eq_of_bare hst
  have hnone (x : Session) (hx : none = some x) : x.id = sid := nomatch hx
  unfold commit
  refine inStep_lift ((level_isAborted w v h).imp fun a b w v ⟨hab, h⟩ => ?_)
  subst hab
  split
  · exact ⟨⟨rfl, hnone⟩, h⟩
  refine inStep_tried ((status_inStep hs (hid.symm.trans hs) h).imp ?_)
  rintro (x | a) (y | b) w v hab
  · exact hab
  · exact hab.elim
  · exact hab.elim
  obtain ⟨rfl, h⟩ := hab
  show InStep _ _ (ExceptT.run (if a = .closed then _ else _))
    (ExceptT.run (if a = .closed then _ else _)) w v
  split
  · exact ⟨⟨rfl, hnone⟩, h⟩
  refine inStep_lift fun m m' _ => ?_
  have hkept : (stamped s m.time.millis).bare = (stamped t m'.time.millis).bare := hst
  have hown (x : Session) (hx : some (stamped s m.time.millis) = some x) : x.id = sid := by
    cases hx
    exact hs
  have h' := h.timed m.time m'.time
  refine inStep_tried ((save_inStep (s := stamped s m.time.millis) hs hkept h').imp ?_)
  rintro (x | a) (y | b) w v hab
  · exact hab
  · exact hab.elim
  · exact hab.elim
  refine inStep_lift ((append_inStep hid hspoken hab).imp fun _ _ w v h => ?_)
  split
  · exact ⟨⟨congrArg some hkept, hown⟩, h⟩
  · have hd : (Delivery.persist s.id delta).bare = (Delivery.persist t.id delta).bare := by
      rw [hid]
    exact inStep_lift ((deliver_inStep hd h).imp fun _ _ w v h => ⟨⟨congrArg some hkept, hown⟩, h⟩)

/-- Halts. -/
theorem stop_inStep {s t : Session} (hs : s.id = sid) (hst : s.bare = t.bare) (x : Halt)
    {more steps steps' : Nat} (hsteps : steps = steps' + more) (h : Abreast sid w₀ v₀ w v) :
    (sc.stop s x steps).run.InStep (sc.Same w₀.store)
      (Agree fun a b w v => a.Alongside more b ∧ Abreast sid w₀ v₀ w v)
      (sc.stop t x steps').run w v := by
  unfold stop
  refine inStep_lift ((message_inStep h _).imp fun d d' w v ⟨hd, h⟩ => ?_)
  have hhalted : (haltedBy s x d).bare = (haltedBy t x d').bare := by
    rw [bare_haltedBy, bare_haltedBy, hst, hd]
  have hspoken : [d].map Message.bare = [d'].map Message.bare := congrArg (fun m => [m]) hd
  refine inStep_tried ((commit_inStep (s := haltedBy s x d) hs hhalted hspoken [] h).imp ?_)
  rintro (f | a) (f' | b) w v hab
  · exact hab
  · exact hab.elim
  · exact hab.elim
  obtain ⟨⟨hab, hown⟩, h⟩ := hab
  match a, b with
  | none, none => exact ⟨⟨hhalted, rfl, hsteps⟩, h⟩
  | some s', some t' =>
    have hst' : s'.bare = t'.bare := Option.some.inj hab
    exact inStep_lift ((emit_inStep rfl h).imp fun _ _ w v h => ⟨⟨hst', rfl, hsteps⟩, h⟩)
  | none, some _ => cases hab
  | some _, none => cases hab

/-- Going where a route leads. -/
theorem follow_inStep {s t : Session} (hs : s.id = sid) (hst : s.bare = t.bare) (node : String)
    (r : Route) {more steps steps' : Nat} (hsteps : steps = steps' + more)
    (h : Abreast sid w₀ v₀ w v) :
    (sc.follow s node r steps).run.InStep (sc.Same w₀.store)
      (Agree fun a b w v => a.Alongside more b ∧ Abreast sid w₀ v₀ w v)
      (sc.follow t node r steps').run w v := by
  have hid := Session.id_eq_of_bare hst
  have hdone (e : Ending) : Progress.Alongside more (.done ⟨s, e, steps⟩) (.done ⟨t, e, steps'⟩) :=
    .done ⟨hst, rfl, hsteps⟩
  cases r with
  | go next => exact ⟨.on hst, h⟩
  | finish => exact inStep_lift ((emit_inStep rfl h).imp fun _ _ w v h => ⟨hdone _, h⟩)
  | pause => exact inStep_lift ((emit_inStep rfl h).imp fun _ _ w v h => ⟨hdone _, h⟩)
  | handoff queue reason =>
    have hd : (Delivery.transfer s.id queue reason).bare =
        (Delivery.transfer t.id queue reason).bare := by rw [hid]
    refine inStep_lift ((deliver_inStep hd h).imp fun _ _ w v h => ?_)
    exact inStep_lift ((emit_inStep rfl h).imp fun _ _ w v h => ⟨hdone _, h⟩)
  | close =>
    have hd : (Delivery.close s.id).bare = (Delivery.close t.id).bare := by rw [hid]
    refine inStep_lift ((deliver_inStep hd h).imp fun _ _ w v h => ?_)
    exact inStep_lift ((emit_inStep rfl h).imp fun _ _ w v h => ⟨hdone _, h⟩)
  | halt kind text again =>
    refine inStep_tried ((stop_inStep hs hst ⟨node, kind, text, again⟩ hsteps h).imp ?_)
    rintro (f | a) (f' | b) w v hab
    · exact hab
    · exact hab.elim
    · exact hab.elim
    · exact ⟨.done hab.1, hab.2⟩

/-- Keeping what a node gave, and going where it leads. -/
theorem conclude_inStep {s t : Session} (hs : s.id = sid) (hst : s.bare = t.bare) (node : String)
    (o : Output) {more steps steps' : Nat} (hsteps : steps = steps' + more)
    (h : Abreast sid w₀ v₀ w v) :
    (sc.conclude s node o steps).run.InStep (sc.Same w₀.store)
      (Agree fun a b w v => a.Alongside more b ∧ Abreast sid w₀ v₀ w v)
      (sc.conclude t node o steps').run w v := by
  unfold conclude
  rw [← Session.vars_eq_of_bare hst]
  refine inStep_lift ((messages_inStep h _).imp fun spoken spoken' w v ⟨hspoken, h⟩ => ?_)
  have hafter : (after s node o.vars spoken (o.transition.route sc.flow node)).bare =
      (after t node o.vars spoken' (o.transition.route sc.flow node)).bare := by
    rw [bare_after, bare_after, hst, hspoken]
  have hid : (after s node o.vars spoken (o.transition.route sc.flow node)).id = sid :=
    (id_after _ _ _ _ _).trans hs
  refine inStep_tried ((commit_inStep hid hafter hspoken _ h).imp ?_)
  rintro (f | a) (f' | b) w v hab
  · exact hab
  · exact hab.elim
  · exact hab.elim
  obtain ⟨⟨hab, hown⟩, h⟩ := hab
  match a, b with
  | none, none =>
    refine inStep_lift ((emitNode_inStep (fun _ _ => rfl) h).imp fun _ _ w v h => ?_)
    exact ⟨.done ⟨hafter, rfl, hsteps⟩, h⟩
  | some s', some t' =>
    have hst' : s'.bare = t'.bare := Option.some.inj hab
    refine inStep_lift ((emitNode_inStep (fun _ _ => rfl) h).imp fun _ _ w v h => ?_)
    exact follow_inStep (hown s' rfl) hst' node _ hsteps h
  | none, some _ => cases hab
  | some _, none => cases hab

/-- **A step** goes on alike, and where it does the session is still the one in hand. -/
theorem advance_inStep (hw₀ : w₀.store.registered = true) {s t : Session} (hs : s.id = sid)
    (hst : s.bare = t.bare) (st : Step) {more steps steps' : Nat} (hsteps : steps = steps' + more)
    (h : Abreast sid w₀ v₀ w v) :
    (sc.advance s st steps).run.InStep (sc.Same w₀.store)
      (Agree fun a b w v => a.Alongside more b ∧ Abreast sid w₀ v₀ w v)
      (sc.advance t st steps').run w v := by
  unfold advance
  dsimp only
  rw [← Session.vars_eq_of_bare hst]
  have hdone {a b : Outcome Report} {w v : World}
      (hab : Agree (fun a b w v => a.Alongside more b ∧ Abreast sid w₀ v₀ w v) a b w v) :
      Agree (fun a b w v => InStep (sc.Same w₀.store)
        (Agree fun a b w v => Progress.Alongside more a b ∧ Abreast sid w₀ v₀ w v)
        (pure (Progress.done a) : Procedure Progress).run
        (pure (Progress.done b) : Procedure Progress).run w v) a b w v := by
    match a, b with
    | .ok a, .ok b => exact ⟨.done hab.1, hab.2⟩
    | .error f, .error f' => exact hab
    | .ok _, .error _ => exact hab.elim
    | .error _, .ok _ => exact hab.elim
  cases hn : sc.flow.node? st.node with
  | none => exact inStep_tried ((stop_inStep hs hst _ hsteps h).imp fun _ _ _ _ => hdone)
  | some n =>
    have hmem : n ∈ sc.flow.nodes := List.mem_of_find?_eq_some hn
    refine inStep_lift ((emitNode_inStep (fun _ _ => rfl) h).imp fun _ _ w v h => ?_)
    refine inStep_lift ((level_visit hw₀ hmem st w v h).imp fun x y w v ⟨hxy, h⟩ => ?_)
    subst hxy
    cases x with
    | cut =>
      refine inStep_lift ((emitNode_inStep (fun _ _ => rfl) h).imp fun _ _ w v h => ?_)
      exact ⟨.done ⟨hst, rfl, hsteps⟩, h⟩
    | failed f =>
      dsimp only
      split
      · exact rfl
      · refine inStep_lift ((emit_inStep rfl h).imp fun _ _ w v h => ?_)
        exact inStep_tried ((stop_inStep hs hst _ hsteps h).imp fun _ _ _ _ => hdone)
    | finished o => exact conclude_inStep hs hst _ o hsteps h

end Scene

end Turn

end Dialogue
