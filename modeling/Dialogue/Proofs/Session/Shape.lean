import Dialogue.Proofs.Registry.Answers

/-! # The shape of stored sessions

A stored session waits for a reply, or is about to run a node, or has halted: at most one of these.
Which columns are set depends on who owns it. This holds of every row that is ever written, whatever
commands a session gets, wherever they are cut, and whatever happens beside them.

* `Writes.inShape`: every session that a command keeps is in shape if the row was that it began
  with.
* `Life.keeps_shape`: all rows of a session are in shape, and an answered command leaves no node
  pending. -/

namespace Dialogue

open Turn World Program

/-- The columns of a session fit together. -/
structure Shape (status : String) (current pending : Option String) (halted : Bool)
    (queue agent : Option String) : Prop where
  one : [current.isSome, pending.isSome, halted].count true ≤ 1
  bot : status = Status.bot.name → queue = none ∧ agent = none
  waiting : status = Status.waiting.name →
    queue.isSome ∧ agent = none ∧ current = none ∧ pending = none ∧ halted = false
  taken : status = Status.open.name →
    queue.isSome ∧ agent.isSome ∧ current = none ∧ pending = none ∧ halted = false
  closed : status = Status.closed.name → current = none ∧ pending = none

/-- The columns of the row fit together. -/
def SessionRow.InShape (r : SessionRow) : Prop :=
  Shape r.status r.currentNode r.pendingNode r.halt.isSome r.queue r.agentId

/-- The columns of the session fit together. -/
def Session.InShape (s : Session) : Prop :=
  Shape s.status.name s.currentNode s.pendingNode s.halt.isSome s.queue s.agentId

/-- What others may do: the row of the session stays as it is. -/
def World.Beside (sid : String) (w w' : World) : Prop :=
  w'.store.registered = w.store.registered ∧ w'.store.row? sid = w.store.row? sid

/-- The life of a session up to now, and whether it was started. It is opened once and started at
most once. Any command may be cut anywhere. -/
inductive Life (settings : Settings) (sid : String) : Bool → World → Prop
  | opened {w : World} {c : Circumstance} {flow : String} {v : Nat} {now : Millis}
      (h : (w.answer c (.createSession (.new sid flow v now))).2 = .ok ()) :
      Life settings sid false (w.answer c (.createSession (.new sid flow v now))).1
  | beside {started : Bool} {w w' : World} (h : Life settings sid started w)
      (hb : Beside sid w w') : Life settings sid started w'
  | start {w w' : World} {p : Program (Outcome Report)} (h : Life settings sid false w)
      (hl : Leads (Beside sid) (fun _ => True) (Command.handle settings sid .start).run w p w') :
      Life settings sid true w'
  | command {started : Bool} {c : Command} {w w' : World} {p : Program (Outcome Report)}
      (h : Life settings sid started w) (hc : c ≠ .start)
      (hl : Leads (Beside sid) (fun _ => True) (Command.handle settings sid c).run w p w') :
      Life settings sid started w'

/-! ### Rows and sessions -/

variable {r r₀ : SessionRow} {s y : Session}

theorem inShape_ofSession : (SessionRow.ofSession s).InShape ↔ s.InShape := by
  unfold SessionRow.InShape Session.InShape SessionRow.ofSession
  rw [Option.isSome_map]

theorem inShape_toSession (h : r.toSession = .ok s) (hr : r.InShape) : s.InShape := by
  obtain ⟨-, -, -, hs, hc, hp, hq, ha, -⟩ := SessionRow.toSession_eq_ok h
  unfold Session.InShape
  rw [SessionRow.isSome_halt h, hc, hp, hq, ha, ← SessionRow.status_of_status? hs]
  exact hr

/-! ### Turns -/

/-- The session as a turn has it in hand: the flow has it, and it waits for nothing. -/
structure Session.Afoot (s : Session) : Prop where
  status : s.status = .bot
  queue : s.queue = none
  agent : s.agentId = none
  current : s.currentNode = none
  halt : s.halt = none

namespace Session.Afoot

theorem inShape_after (h : s.Afoot) (node : String) (vars : Variables) (spoken : List Message)
    (route : Route) (now : Millis) : (stamped (after s node vars spoken route) now).InShape := by
  obtain ⟨hs, hq, ha, hc, hh⟩ := h
  cases route <;> constructor <;> simp [stamped, after, hs, hq, ha, hc, hh, Status.name]

theorem inShape_haltedBy (h : s.Afoot) (x : Halt) (diagnosis : Message) (now : Millis) :
    (stamped (haltedBy s x diagnosis) now).InShape := by
  obtain ⟨hs, hq, ha, -, -⟩ := h
  constructor <;> simp [stamped, haltedBy, hs, hq, ha, Status.name]

end Session.Afoot

/-- The session in hand before the end of a turn. -/
def Turn.Stand.Afoot : Stand → Prop
  | .before s _ | .halting s _ => s.Afoot
  | .over _ _ => True

/-- Behind a node the turn goes on with a session afoot, or is over. -/
theorem Session.Afoot.behind (h : s.Afoot) (node : String) (vars : Variables)
    (spoken : List Message) (route : Route) (now : Millis) :
    (Stand.behind (stamped (after s node vars spoken route) now) node route).Afoot := by
  obtain ⟨hs, hq, ha, hc, hh⟩ := h
  cases route with
  | go next => exact ⟨hs, hq, ha, hc, hh⟩
  | halt kind text retryable => exact ⟨hs, hq, ha, hc, hh⟩
  | finish | pause | handoff | close => exact trivial

namespace Turn.Scene

variable {sc : Scene} {start stand next : Stand}

/-- **A write** of a session that is afoot keeps it in shape. -/
theorem Writes.inShape (h : sc.Writes stand y next) (hs : stand.Afoot) :
    y.InShape ∧ next.Afoot := by
  cases h with
  | node ho hr spoken now => exact ⟨hs.inShape_after _ _ _ _ _, hs.behind _ _ _ _ _⟩
  | halt s x diagnosis now => exact ⟨hs.inShape_haltedBy x diagnosis now, trivial⟩

theorem Comes.afoot (h : sc.Comes start r₀ stand r) (hs : start.Afoot) : stand.Afoot := by
  induction h with
  | begun => exact hs
  | fault _ _ ih => exact ih
  | wrote _ hw ih => exact (hw.inShape ih).2

/-- A session that was kept at the end of a turn has no node pending. -/
theorem Writes.pending_of_over {s : Session} {e : Ending}
    (h : sc.Writes stand y (.over s e)) : y.pendingNode = none := by
  generalize hn : Stand.over s e = next at h
  cases h with
  | halt x h diagnosis now => rfl
  | @node x st o route ho hr spoken now =>
    cases route with
    | go next => nomatch hn
    | halt kind text retryable => nomatch hn
    | finish | pause | handoff | close => rfl

theorem Comes.pending_of_over {s : Session} {e : Ending} (h : sc.Comes start r₀ (.over s e) r)
    (hne : ∀ s e, start ≠ .over s e) : r.pendingNode = none := by
  cases h with
  | begun => exact absurd rfl (hne s e)
  | wrote _ hw => exact hw.pending_of_over

end Turn.Scene

/-! ### Commands -/

namespace Command

variable {settings : Settings} {L : Library} {sid : String} {c : Command} {p : Plan}
  {told : List Delivery}

/-- A session with a pending node belongs to the flow. -/
theorem status_of_pending (h : s.InShape) (hp : s.pendingNode.isSome) : s.status = .bot := by
  cases hs : s.status with
  | bot => rfl
  | waiting => have := (h.waiting (by rw [hs])).2.2.2.1; rw [this] at hp; cases hp
  | «open» => have := (h.taken (by rw [hs])).2.2.2.1; rw [this] at hp; cases hp
  | closed => have := (h.closed (by rw [hs])).2; rw [this] at hp; cases hp

/-- The flow has the session for which a turn is planned. -/
theorem Plans.status (h : Plans settings L s c p) (hs : s.InShape) (hc : s.isClosed = false)
    (hstart : c = .start → s.status = .bot) :
    p.session.status = .bot ∧ p.session.queue = none ∧ p.session.agentId = none := by
  have hbot (hb : s.status = .bot) : s.status = .bot ∧ s.queue = none ∧ s.agentId = none :=
    ⟨hb, hs.bot (by rw [hb])⟩
  cases h with
  | start _ => exact hbot (hstart rfl)
  | reply hq _ _ => exact hbot (status_of_not_queued hc hq)
  | retry hq _ _ _ _ => exact hbot (status_of_not_queued hc hq)
  | click hp _ _ _ _ =>
    simp only [Session.isPaused, Bool.and_eq_true, decide_eq_true_eq] at hp
    exact hbot hp.1
  | recover hn _ => exact hbot (status_of_pending hs (by rw [hn]; rfl))
  | giveBack _ _ _ => exact ⟨rfl, rfl, rfl⟩

theorem Plan.Begins.afoot {s' : Session} (hb : p.Begins r₀ s' r told)
    (h : p.session.status = .bot ∧ p.session.queue = none ∧ p.session.agentId = none) :
    (p.start s').Afoot := by
  cases hb with
  | silent _ => exact ⟨h.1, h.2.1, h.2.2, rfl, rfl⟩
  | said _ id now => exact ⟨h.1, h.2.1, h.2.2, rfl, rfl⟩

theorem Direct.inShape {e : Ending} (h : Direct s c y e) (hs : s.InShape) : y.InShape := by
  cases h with
  | relay hq id now => exact hs
  | close now => constructor <;> cases s.halt <;> simp [Status.name]
  | assign hq now =>
    have hq : s.queue.isSome ∧ s.currentNode = none ∧ s.pendingNode = none ∧
        s.halt.isSome = false := by
      simp only [isQueued, Bool.or_eq_true, decide_eq_true_eq] at hq
      rcases hq with hq | hq
      · obtain ⟨h1, -, h2⟩ := hs.waiting (by rw [hq])
        exact ⟨h1, h2⟩
      · obtain ⟨h1, -, h2⟩ := hs.taken (by rw [hq])
        exact ⟨h1, h2⟩
    obtain ⟨h1, h2, h3, h4⟩ := hq
    constructor <;> simp [Status.name, h1, h2, h3, h4]

theorem Direct.pending {e : Ending} (h : Direct s c y e) (hy : y.pendingNode.isSome) :
    s.pendingNode.isSome := by
  cases h with
  | relay hq id now => exact hy
  | close now => cases hy
  | assign hq now => exact hy

/-- **Every session that a command keeps** is in shape. -/
theorem Writes.inShape (h : Writes settings L sid c r₀ r y) (h₀ : r₀.InShape)
    (hstart : ∀ s, c = .start → r₀.toSession = .ok s → s.isClosed = false → s.status = .bot) :
    y.InShape := by
  cases h with
  | direct hs hd => exact hd.inShape (inShape_toSession hs.1 h₀)
  | @record s p text hs hp ht id now =>
    have hshape : s.InShape := inShape_toSession hs.1 h₀
    rw [hp.session_of_said ht]
    exact hshape
  | turn hs hp hb ht =>
    obtain ⟨stand, next, hcomes, hw⟩ := ht
    have hbot := hp.status (inShape_toSession hs.1 h₀) hs.2 fun hc => hstart _ hc hs.1 hs.2
    exact (hw.inShape (hcomes.afoot (hb.afoot hbot))).1

theorem Opens.pending (hs : Opens r₀ s) : s.pendingNode = r₀.pendingNode := by
  obtain ⟨-, -, -, -, -, h, -⟩ := SessionRow.toSession_eq_ok hs.1
  exact h

/-- **After an answer** no node is pending that was not pending before. -/
theorem Ends.pending {rep : Report} (h : Ends settings L sid c r₀ rep r)
    (he : rep.ending ≠ .aborted) (hr : r.pendingNode.isSome) : r₀.pendingNode.isSome := by
  cases h with
  | @direct s y e hs hd =>
    have hy : y.pendingNode.isSome := hr
    rw [← hs.pending]
    exact hd.pending hy
  | @turn s s' p stand r r' told rep hs hp hb hcomes hover =>
    rw [hover he] at hcomes
    rw [hcomes.pending_of_over p.start_ne_over] at hr
    cases hr

theorem Fails.pending {f : Failure} (h : Fails settings L sid c r₀ f r told)
    (hr : r.pendingNode.isSome) : r₀.pendingNode.isSome := by
  cases h with
  | unreadable | refused | lacking => exact hr
  | misfit hs hp hb hst =>
    cases hb with
    | silent _ => exact hr
    | said ht id now =>
      rw [← hs.pending, ← hp.session_of_said ht]
      exact hr

end Command

/-! ### The life of a session -/

/-- What others do to other sessions is no matter for the work on one. -/
theorem World.ground_beside (sid : String) :
    Ground (Beside sid) (fun _ _ => True) sid fun w => w.store.registered = true where
  others hb h := hb.1.trans h
  quiet w c ha h := (alike_answer ha w c).registered.trans h
  remembered _ h := h
  registered h := h
  row hb _ := hb.2
  saved h := h
  told h := h

/-- The session is closed, or nothing has happened to it yet. -/
def SessionRow.Unused (r : SessionRow) : Prop :=
  r.status = Status.closed.name ∨ r.status = Status.bot.name ∧ r.currentNode = none ∧
    r.pendingNode = none ∧ r.halt = none

namespace Command

variable {settings : Settings} {L : Library} {sid : String} {c : Command}

theorem Opens.unused (hs : Opens r₀ s) (h : r₀.Unused) :
    s.status = .bot ∧ s.currentNode = none ∧ s.pendingNode = none ∧ s.halt = none := by
  obtain ⟨-, -, -, hst, hc, hp, -⟩ := SessionRow.toSession_eq_ok hs.1
  have hst := SessionRow.status_of_status? hst
  rcases h with h | ⟨h, hcur, hpen, hhalt⟩
  · have : s.status = .closed := Status.name_injective (hst.symm.trans h)
    have hopen := hs.2
    rw [Session.isClosed, this] at hopen
    cases hopen
  · refine ⟨Status.name_injective (hst.symm.trans h), hc.trans hcur, hp.trans hpen, ?_⟩
    rw [← Option.not_isSome_iff_eq_none, SessionRow.isSome_halt hs.1, hhalt]
    exact Bool.false_ne_true

/-- No turn is planned for a session that is not used yet, but the one that starts it. -/
theorem Plans.start_of_unused {p : Plan} (h : Plans settings L s c p) (hs : Opens r₀ s)
    (h₀ : r₀.Unused) : c = .start := by
  obtain ⟨hst, hc, hp, hh⟩ := hs.unused h₀
  cases h with
  | start hf => rfl
  | reply hq hn hf => rw [hc] at hn; cases hn
  | retry hq hn hx hr hf => rw [hh] at hx; cases hx
  | click hp hn hf ha hk => rw [hc] at hn; cases hn
  | recover hn hf => rw [hp] at hn; cases hn
  | giveBack hq hf ha => rw [isQueued, hst] at hq; cases hq

/-- A session that is not used yet can only be closed, or started. -/
theorem Writes.unused (h : Writes settings L sid c r₀ r y) (h₀ : r₀.Unused) (hc : c ≠ .start) :
    (SessionRow.ofSession y).Unused := by
  cases h with
  | direct hs hd =>
    obtain ⟨hst, -⟩ := hs.unused h₀
    cases hd with
    | relay hq id now => rw [isQueued, hst] at hq; cases hq
    | close now => exact .inl rfl
    | assign hq now => rw [isQueued, hst] at hq; cases hq
  | record hs hp ht id now => exact absurd (hp.start_of_unused hs h₀) hc
  | turn hs hp hb ht => exact absurd (hp.start_of_unused hs h₀) hc

end Command

namespace Life

variable {settings : Settings} {sid : String} {started : Bool} {w w' : World}

/-- A command in the life of a session takes its course. -/
theorem always_handle (settings : Settings) (c : Command)
    (hw : Holds (fun w => w.store.registered = true) sid r w) :
    (Command.handle settings sid c).run.Always (Beside sid)
      (Ask.Allowed sid (Command.Writes settings .any sid c r) fun _ _ => True)
      (Command.Came settings .any (Beside sid) (fun w => w.store.registered = true) sid c r
        w.deliveries) w :=
  Command.handle_always (ground_beside sid) (Library.serves_any _ _) c hw fun _ => rfl

theorem opened_row {c : Circumstance} {flow : String} {v : Nat} {now : Millis}
    (h : (w.answer c (.createSession (.new sid flow v now))).2 = .ok ()) :
    Holds (fun w => w.store.registered = true) sid (.ofSession (.new sid flow v now))
      (w.answer c (.createSession (.new sid flow v now))).1 := by
  simp only [answer] at h ⊢
  cases hs : w.store.createSession (.new sid flow v now) with
  | error f => rw [hs] at h; cases h
  | ok store =>
    obtain ⟨hreg, sessions, rfl, -, hrow⟩ := Store.createSession_eq_ok hs
    exact ⟨hreg, (hrow sid).trans (if_pos rfl)⟩

/-- The row of a session, with what has become of it so far. -/
theorem exists_row (h : Life settings sid started w) :
    ∃ r, Holds (fun w => w.store.registered = true) sid r w ∧ r.InShape ∧
      (started = false → r.Unused) := by
  have hB := ground_beside sid
  induction h with
  | opened h =>
    refine ⟨_, opened_row h, inShape_ofSession.mpr ?_, fun _ => .inr ⟨rfl, rfl, rfl, rfl⟩⟩
    constructor <;> simp [Session.new, Status.name]
  | beside _ hb ih =>
    obtain ⟨r, hw, hr⟩ := ih
    exact ⟨r, (hB.stable_holds r).others hb hw, hr⟩
  | start _ hl ih =>
    obtain ⟨r, hw, hr, hu⟩ := ih
    have hkept (r' : SessionRow) (y : Session)
        (hy : Command.Writes settings .any sid .start r r' y) : (SessionRow.ofSession y).InShape :=
      inShape_ofSession.mpr <| hy.inShape hr fun s _ hs hc =>
        (Command.Opens.unused ⟨hs, hc⟩ (hu rfl)).1
    obtain ⟨r', hw', hr'⟩ := (always_handle _ .start hw).holds_leads hB hl hkept hw hr
    exact ⟨r', hw', hr', nofun⟩
  | @command started c w w' p _ hc hl ih =>
    obtain ⟨r, hw, hr, hu⟩ := ih
    have hkept (r' : SessionRow) (y : Session)
        (hy : Command.Writes settings .any sid c r r' y) :
        (SessionRow.ofSession y).InShape ∧ (started = false → (SessionRow.ofSession y).Unused) :=
      ⟨inShape_ofSession.mpr (hy.inShape hr fun s hs => absurd hs hc),
        fun hs => hy.unused (hu hs) hc⟩
    exact (always_handle _ c hw).holds_leads
      (P := fun r => r.InShape ∧ (started = false → r.Unused)) hB hl hkept hw ⟨hr, hu⟩

/-- **The shape of stored sessions.** Whatever a session goes through, its row is in shape. Once a
command to it was answered otherwise than by a cut turn, the row has no pending node unless it had
one before the command. -/
theorem keeps_shape (h : Life settings sid started w) :
    ∃ r, w.store.row? sid = some r ∧ r.InShape ∧
      ∀ (c : Command) (res : Outcome Report) (w' : World),
        Leads (Beside sid) (fun _ => True) (Command.handle settings sid c).run w (.done res) w' →
        (∀ rep, res = .ok rep → rep.ending ≠ .aborted) →
        ∀ r', w'.store.row? sid = some r' → r'.pendingNode.isSome → r.pendingNode.isSome := by
  obtain ⟨r, hw, hr, -⟩ := h.exists_row
  refine ⟨r, hw.2, hr, fun c res w' hl hres r' hr' hp => ?_⟩
  have hcame := (always_handle _ c hw).leads hl
  cases res with
  | ok rep =>
    obtain ⟨r'', hends, hw'⟩ := hcame
    obtain rfl : r' = r'' := Option.some.inj (hr'.symm.trans hw'.2)
    exact hends.pending (hres rep rfl) hp
  | error f =>
    obtain ⟨r'', told, hfails, hw', -⟩ := hcame
    obtain rfl : r' = r'' := Option.some.inj (hr'.symm.trans hw'.2)
    exact hfails.pending hp

end Life

/-! ### Two flows -/

/-- Sessions go on with their own versions. -/
def Settings.pinned : Settings := { Settings.default with
  engine := { Settings.default.engine with binding := .pinned } }

/-- A flow that asks for two things and says goodbye. -/
def Flow.asking : Flow :=
  ⟨"f1", 1,
    [⟨"start", .start, .null, .start none⟩, ⟨"name", .input, .null, .input none "x"⟩,
      ⟨"mail", .input, .null, .input none "y"⟩, ⟨"end", .finish, .null, .finish none⟩],
    [⟨"e1", "start", "name", .plain⟩, ⟨"e2", "name", "mail", .plain⟩,
      ⟨"e3", "mail", "end", .plain⟩], [], [], "start"⟩

/-- A flow that keeps a value and hands the customer on. -/
def Flow.keeping (v : Json) : Flow :=
  ⟨"f1", 1,
    [⟨"start", .start, .null, .start none⟩, ⟨"set", .setValue, .null, .setValue "x" v⟩,
      ⟨"desk", .queue, .null, .queue "sales" none none⟩],
    [⟨"e1", "start", "set", .plain⟩, ⟨"e2", "set", "desk", .plain⟩], [], [], "start"⟩

/-- A new session of a flow that is at hand. -/
def World.opening (f : Flow) : World :=
  (answer { new .empty 0 with compiled := Cache.empty.set "f1@1" f } ⟨false, .unreachable⟩
    (.createSession (.new "s1" "f1" 1 0))).1

/-- A session that waits for a first reply gets it, and waits for the next one: the node that was
about to run meanwhile is not pending any more. -/
theorem Life.keeps_shape_asked :
    let reply := (Command.handle .pinned "s1" (.text "Ann")).run
    let w := ((opening .asking).run (calm .unreachable) 0
      (Command.handle .pinned "s1" .start).run).2.1
    let w' := (w.run (calm .unreachable) 0 reply).2.1
    Life .pinned "s1" true w ∧ ∃ r rep r', w.store.row? "s1" = some r ∧ r.InShape ∧
      r.currentNode = some "name" ∧
      Leads (Beside "s1") (fun _ => True) reply w (.done (.ok rep)) w' ∧
      rep.ending = .paused ∧ rep.steps = 2 ∧
      w'.store.row? "s1" = some r' ∧ r'.currentNode = some "mail" ∧ r'.pendingNode = none := by
  intro reply w w'
  have hlife : Life .pinned "s1" true w :=
    .start (.opened rfl) (leads_run (fun _ => ⟨rfl, rfl⟩) (calm .unreachable) 0 _ (opening .asking))
  have hbefore : (w.store.row? "s1").map (fun r => (r.currentNode, r.pendingNode)) =
      some (some "name", none) := by decide +kernel
  have hafter : (w'.store.row? "s1").map (·.currentNode) = some (some "mail") := by
    decide +kernel
  have hreport : (w.run (calm .unreachable) 0 reply).2.2.toOption.map
      (fun rep => (rep.ending, rep.steps)) = some (.paused, 2) := by decide +kernel
  have hlead : Leads (Beside "s1") (fun _ => True) reply w _ w' :=
    leads_run (fun _ => ⟨rfl, rfl⟩) (calm .unreachable) 0 reply w
  obtain ⟨r, hr, hshape, hpending⟩ := hlife.keeps_shape
  obtain ⟨r', hr', hcurrent'⟩ := Option.map_eq_some_iff.mp hafter
  rw [hr, Option.map_some, Option.some.injEq, Prod.mk.injEq] at hbefore
  generalize (w.run (calm .unreachable) 0 reply).2.2 = res at hreport hlead
  cases res with
  | error f => cases hreport
  | ok rep =>
    obtain ⟨hending, hsteps⟩ := Prod.mk.inj (Option.some.inj hreport)
    have hnot : ∀ rep', (.ok rep : Outcome Report) = .ok rep' → rep'.ending ≠ .aborted := by
      rintro _ ⟨⟩
      exact hending ▸ nofun
    have hnone : r'.pendingNode = none := by
      cases hp : r'.pendingNode with
      | none => rfl
      | some node =>
        have hsome := hpending _ _ _ hlead hnot r' hr' (by rw [hp]; rfl)
        rw [hbefore.2] at hsome
        cases hsome
    exact ⟨hlife, r, rep, r', hr, hshape, hbefore.1, hlead, hending, hsteps, hr', hcurrent', hnone⟩

end Dialogue
