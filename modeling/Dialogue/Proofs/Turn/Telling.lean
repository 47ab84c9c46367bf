import Dialogue.Proofs.Session.Unfolds
import Dialogue.Proofs.Turn.Course

/-! # What a turn tells

A turn tells of every node that it begins to run, and how that node ended before it goes on. It
tells last how it ended itself, and that is also what gives the session away. A node is left running
if it refuses a reply, or if the store fails to keep what came of it, and then the turn has failed.

* `stop_unfolds`, `follow_unfolds`, `conclude_unfolds`, `advance_unfolds`: the parts of a turn.
* `walk_unfolds`: the whole turn, by induction on the budget.
* `walk_balks`: a turn that begins with a reply that does not fit its node. -/

namespace Dialogue

theorem Session.not_givenAway {y : Session} (h : y.status = .bot) (turning : Prop)
    (r : SessionRow) : ¬ y.GivenAway turning r := by
  rintro ⟨hw | hc, -⟩
  · rw [h] at hw; cases hw
  · rw [h] at hc; cases hc

namespace Turn

open Program Procedure

/-! ### Endings and what tells them -/

/-- The event that tells how a command ended with a session. -/
inductive Ending.ToldBy (s : Session) : Ending → SessionEvent → Prop
  | paused : ToldBy s .paused .paused
  | handoff {queue : String} (hq : s.queue = some queue) : ToldBy s .handoff (.handoff queue)
  | closed : ToldBy s .closed .closed
  | halted {h : Halt} (hh : s.halt = some h) : ToldBy s .halted (.halted h.message)
  | ended : ToldBy s .ended .ended

/-- Nothing is told of such an ending: the turn was cut, or there was none. -/
def Ending.IsSilent : Ending → Prop
  | .aborted | .relayed | .assigned => True
  | _ => False

/-- The event, if there is one, tells how the command ended. -/
def Report.Told (rep : Report) : Option SessionEvent → Prop
  | some e => rep.ending.ToldBy rep.session e
  | none => rep.ending.IsSilent

/-- The command is over, with all told. -/
structure Closed (rep : Report) (ph : Phase) : Prop where
  running : ph.running = none
  owed : ph.owed = none
  told : rep.Told ph.ended

/-- An ending of which something is told is told once and last. -/
theorem Closed.told_last {rep : Report} {ph₀ ph : Phase} {log : List Entry} (h : Closed rep ph)
    (hl : ph₀.Leads log ph) (h₀ : ph₀.ended = none) (hnot : ¬ rep.ending.IsSilent) :
    ∃ before node e, log = before ++ [.event node (.session e)] ∧
      rep.ending.ToldBy rep.session e ∧
      log.filterMap (Entry.session? SessionEvent.isEnding) = [e] := by
  obtain ⟨hends, hlast⟩ := hl.ends h₀
  have htold := h.told
  cases he : ph.ended with
  | none =>
    rw [he] at htold
    exact absurd htold hnot
  | some e =>
    rw [he] at htold
    obtain ⟨node, before, hlog⟩ := hlast e he
    exact ⟨before, node, e, hlog, htold, by rw [hends, he]; rfl⟩

/-- No event tells of an ending of which nothing is told. -/
theorem Closed.ended_of_isSilent {rep : Report} {ph : Phase} (h : Closed rep ph)
    (hsilent : rep.ending.IsSilent) : ph.ended = none := by
  have htold := h.told
  cases he : ph.ended with
  | none => rfl
  | some e =>
    rw [he] at htold
    have htold : rep.ending.ToldBy rep.session e := htold
    generalize rep.ending = ending at hsilent htold
    cases htold <;> exact hsilent.elim

/-- The turn goes on with a session in hand, while a node runs or none does. -/
structure Ongoing (sid : String) (s : Session) (running : Option String) (ph : Phase) : Prop where
  id : s.id = sid
  status : s.status = .bot
  turning : ph.turning = true
  readable : ∃ x, ph.row.status? = .ok x
  running : ph.running = running
  owed : ph.owed = none
  ended : ph.ended = none

theorem Ongoing.even {sid : String} {s : Session} {ph : Phase} (h : Ongoing sid s none ph) :
    ph.Even := ⟨h.running, h.owed, h.ended⟩

/-- The turn goes on at a node, or is over. -/
def Goes (sid : String) : Progress → Phase → Prop
  | .on s _, ph => Ongoing sid s none ph
  | .done rep, ph => Closed rep ph

/-- The event that gives the session away on a route. -/
def Route.event? : Route → Option SessionEvent
  | .handoff queue _ => some (.handoff queue)
  | .close => some .closed
  | .go _ | .finish | .pause | .halt _ _ _ => none

/-- The turn has failed because the store has. -/
structure Breaks (f : Failure) (ph : Phase) : Prop where
  fault : f ∈ ph.faults
  owed : ph.owed = none
  ended : ph.ended = none

/-- The reply of a step does not fit its node. -/
def Scene.Misfits (sc : Scene) (st : Step) (node : String) : Prop :=
  ∃ reply n, st = .resume node reply ∧ sc.flow.node? node = some n ∧ ¬ Awaits n.action reply

/-- Of a node that refuses its reply nothing was told but that it runs, or that it was stopped when
the turn was cut. -/
inductive Rebuffed (node : String) : Outcome Report → Phase → Prop
  | cut {rep : Report} {ph : Phase} (time time' : Millis) (h : Closed rep ph)
      (he : rep.ending = .aborted)
      (hn : ph.nodes = [(node, .running time), (node, .stopped time')]) :
      Rebuffed node (.ok rep) ph
  | left {f : Failure} {ph : Phase} (time : Millis) (hf : f.isSession = true)
      (hr : ph.running = some node) (ho : ph.owed = none) (hu : ph.ended = none)
      (hn : ph.nodes = [(node, .running time)]) : Rebuffed node (.error f) ph

namespace Scene

variable {sc : Scene} {s : Session} {ph : Phase}

/-- A halt tells nothing of nodes. -/
theorem stop_unfolds (h : Ongoing sc.session s none ph) (x : Halt) (steps : Nat) :
    (sc.stop s x steps).run.Unfolds sc.session
      (Phase.Either (fun rep ph' => Closed rep ph' ∧ ph'.nodes = ph.nodes)
        fun f ph' => Breaks f ph' ∧ ph'.nodes = ph.nodes) ph := by
  obtain ⟨status, hstatus⟩ := h.readable
  unfold stop
  refine unfolds_aside ((untold_message _).imp fun diagnosis _ => ?_)
  have hkept (now : Millis) : ph.Takes (.kept ph.row (stamped (haltedBy s x diagnosis) now)) _ :=
    .stays h.owed h.ended (Session.not_givenAway h.status _ _)
  have hcommit := unfolds_commit (s := haltedBy s x diagnosis) h.id [diagnosis] [] hstatus h.ended
    hkept
  refine unfolds_tried (hcommit.imp ?_)
  rintro (e | kept) ph' hph
  · cases hph
    exact ⟨⟨ph.mem_failing e, h.owed, h.ended⟩, rfl⟩
  cases kept with
  | none =>
    cases hph
    exact ⟨⟨h.running, h.owed, h.ended ▸ trivial⟩, rfl⟩
  | some y =>
    obtain ⟨now, rfl, rfl⟩ := hph
    exact unfolds_emit (.ending h.running h.ended rfl rfl) ⟨⟨h.running, rfl, .halted rfl⟩, rfl⟩

/-- A halt is how a step ends. -/
theorem halt_unfolds (h : Ongoing sc.session s none ph) (x : Halt) (steps : Nat) :
    ((sc.stop s x steps) >>= fun rep => pure (Progress.done rep)).run.Unfolds sc.session
      (Phase.Either (Goes sc.session) Breaks) ph := by
  refine unfolds_tried ((stop_unfolds h x steps).imp ?_)
  rintro (e | rep) ph' hph
  · exact hph.1
  · exact hph.1

theorem follow_unfolds {node : String} {r : Route} (hr : ph.running = none)
    (hu : ph.ended = none) (ho : ph.owed = r.event?)
    (hon : r.event? = none → Ongoing sc.session s none ph)
    (hq : ∀ queue reason, r = .handoff queue reason → s.queue = some queue) (steps : Nat) :
    (sc.follow s node r steps).run.Unfolds sc.session
      (Phase.Either (Goes sc.session) Breaks) ph := by
  cases r with
  | go next => exact hon rfl
  | finish => exact unfolds_emit (.ending hr hu rfl ho) ⟨hr, rfl, .ended⟩
  | pause => exact unfolds_emit (.ending hr hu rfl ho) ⟨hr, rfl, .paused⟩
  | handoff queue reason =>
    refine unfolds_aside (p := deliver _) ⟨trivial, fun _ => ?_⟩
    exact unfolds_emit (.ending hr hu rfl ho) ⟨hr, rfl, .handoff (hq queue reason rfl)⟩
  | close =>
    refine unfolds_aside (p := deliver _) ⟨trivial, fun _ => ?_⟩
    exact unfolds_emit (.ending hr hu rfl ho) ⟨hr, rfl, .closed⟩
  | halt kind text retryable => exact halt_unfolds (hon rfl) _ steps

/-- How the journal goes on with the row behind a node. -/
theorem takes_after (node : String) {running : String} (h : Ongoing sc.session s (some running) ph)
    (vars : Variables) (spoken : List Message) (r : Route) (now : Millis) :
    ph.Takes (.kept ph.row (stamped (after s node vars spoken r) now)) { ph with
      row := .ofSession (stamped (after s node vars spoken r) now)
      owed := r.event? } := by
  cases r with
  | handoff queue reason => exact .leaves h.owed h.ended (.handoff rfl rfl)
  | close => exact .leaves h.owed h.ended (.closed rfl)
  | go | finish | pause | halt =>
    exact .stays h.owed h.ended (Session.not_givenAway h.status _ _)

theorem status_after_of_event? (node : String) (vars : Variables) (spoken : List Message)
    {r : Route} (hs : s.status = .bot) (hr : r.event? = none) :
    (after s node vars spoken r).status = .bot := by
  cases r with
  | handoff queue reason => cases hr
  | close => cases hr
  | _ => exact hs

/-- The node is left running if the store fails to keep what came of it. -/
theorem conclude_unfolds {node : String} (h : Ongoing sc.session s (some node) ph) (o : Output)
    (steps : Nat) :
    (sc.conclude s node o steps).run.Unfolds sc.session
      (Phase.Either (Goes sc.session) Breaks) ph := by
  obtain ⟨status, hstatus⟩ := h.readable
  unfold conclude
  refine unfolds_aside ((untold_messages _).imp fun spoken _ => ?_)
  dsimp only
  generalize o.transition.route sc.flow node = r
  have hid : (after s node o.vars spoken r).id = sc.session := (id_after ..).trans h.id
  have hkept := takes_after node h o.vars spoken r
  refine unfolds_tried ((unfolds_commit hid _ _ hstatus h.ended hkept).imp ?_)
  rintro (e | kept) ph' hph
  · cases hph
    exact ⟨ph.mem_failing e, h.owed, h.ended⟩
  cases kept with
  | none =>
    cases hph
    exact unfolds_emitNode (fun _ => .closing h.running h.ended rfl) fun _ =>
      ⟨rfl, h.owed, h.ended ▸ trivial⟩
  | some y =>
    obtain ⟨now, rfl, rfl⟩ := hph
    refine unfolds_emitNode (fun _ => .closing h.running h.ended rfl) fun _ => ?_
    refine follow_unfolds ?_ ?_ ?_ (fun hr => ?_) ?_ steps
    · rfl
    · exact h.ended
    · rfl
    · exact ⟨hid, status_after_of_event? node o.vars spoken h.status hr, h.turning,
        ⟨_, SessionRow.status?_ofSession _⟩, rfl, hr, h.ended⟩
    · rintro queue reason rfl
      rfl

/-- What the visit of a node asks, and what comes of it. -/
theorem asks_visiting (n : Flow.Node) (st : Step) (vars : Variables) :
    (sc.visit n st vars).Asks Ask.Visiting fun _ => True :=
  (asks_visit n st).imp fun _ _ => trivial

/-- **A step** tells how its node ended before anything else, unless the store fails. -/
theorem advance_unfolds (h : Ongoing sc.session s none ph) {st : Step}
    (hst : ∀ node, ¬ sc.Misfits st node) (steps : Nat) :
    (sc.advance s st steps).run.Unfolds sc.session (Phase.Either (Goes sc.session) Breaks) ph := by
  unfold advance
  dsimp only
  cases hn : sc.flow.node? st.node with
  | none => exact halt_unfolds h _ steps
  | some n =>
    refine unfolds_emitNode (fun _ => .running h.even) fun time => ?_
    refine unfolds_visit h.ended (asks_visiting n st _) (gives_visit n st s.vars)
      fun v faults hv => ?_
    cases v with
    | cut =>
      exact unfolds_emitNode (fun _ => .closing rfl h.ended rfl) fun _ =>
        ⟨rfl, h.owed, h.ended ▸ trivial⟩
    | finished o =>
      refine conclude_unfolds ?_ o steps
      exact ⟨h.id, h.status, h.turning, h.readable, rfl, h.owed, h.ended⟩
    | failed f =>
      have hf : f.isSession = false := by
        cases st with
        | run node => exact hv
        | resume node reply => exact absurd ⟨reply, n, rfl, hn, hv.2⟩ (hst node)
      simp only [hf, Bool.false_eq_true, if_false]
      refine unfolds_emit (.closing rfl h.ended rfl) ?_
      refine halt_unfolds ?_ _ steps
      exact ⟨h.id, h.status, h.turning, h.readable, rfl, h.owed, h.ended⟩

/-- A step whose reply does not fit the node tells that it runs, and then fails. -/
theorem advance_rebuffed (h : Ongoing sc.session s none ph) (hnodes : ph.nodes = []) {st : Step}
    {node : String} (hst : sc.Misfits st node) (steps : Nat) :
    (sc.advance s st steps).run.Unfolds sc.session (Phase.Either (fun progress ph' =>
      ∃ rep, progress = .done rep ∧ Rebuffed node (.ok rep) ph') fun f ph' =>
      Rebuffed node (.error f) ph') ph := by
  obtain ⟨reply, n, rfl, hn, ha⟩ := hst
  unfold advance
  rw [show (Step.resume node reply).node = node from rfl]
  simp only [hn]
  refine unfolds_emitNode (fun _ => .running h.even) fun time => ?_
  refine unfolds_visit h.ended (asks_visiting n _ _) (gives_visit n _ s.vars) fun v faults hv => ?_
  cases v with
  | cut =>
    refine unfolds_emitNode (fun _ => .closing rfl h.ended rfl) fun time' => ?_
    exact ⟨_, rfl, .cut time time' ⟨rfl, h.owed, h.ended ▸ trivial⟩ rfl (by simp [hnodes])⟩
  | finished o => exact absurd hv.1 ha
  | failed f =>
    have hf : f.isSession = true := hv.1
    simp only [hf, if_true]
    exact .left time hf rfl h.owed h.ended (by simp [hnodes])

theorem not_misfits_run (sc : Scene) (node other : String) : ¬ sc.Misfits (.run node) other := by
  rintro ⟨reply, n, hst, -⟩
  cases hst

/-- **A turn** tells how each node ended, and last how it ended itself, unless the store fails. -/
theorem walk_unfolds (h : Ongoing sc.session s none ph) (budget steps : Nat) {st : Step}
    (hst : ∀ node, ¬ sc.Misfits st node) :
    (sc.walk budget steps s st).run.Unfolds sc.session (Phase.Either Closed Breaks) ph := by
  induction budget generalizing steps s st ph with
  | zero =>
    refine (stop_unfolds h _ steps).imp ?_
    rintro (e | rep) ph' hph
    · exact hph.1
    · exact hph.1
  | succ budget ih =>
    rw [walk_succ]
    refine unfolds_tried ((advance_unfolds h hst (steps + 1)).imp ?_)
    rintro (e | ⟨s', next⟩ | rep) ph' hph
    · exact hph
    · exact ih hph (steps + 1) (sc.not_misfits_run next)
    · exact hph

/-- What comes of a turn that begins with a reply that does not fit: without a budget nothing is
told of nodes, else the node refuses it. -/
def Balks (budget : Nat) (node : String) (o : Outcome Report) (ph : Phase) : Prop :=
  budget = 0 ∧ ph.nodes = [] ∧ Phase.Either Closed Breaks o ph ∨ Rebuffed node o ph

theorem walk_balks (h : Ongoing sc.session s none ph) (hnodes : ph.nodes = [])
    (budget steps : Nat) {st : Step} {node : String} (hst : sc.Misfits st node) :
    (sc.walk budget steps s st).run.Unfolds sc.session (Balks budget node) ph := by
  cases budget with
  | zero =>
    refine (stop_unfolds h _ steps).imp ?_
    rintro (e | rep) ph' ⟨hph, hsame⟩
    · exact .inl ⟨rfl, hsame.trans hnodes, hph⟩
    · exact .inl ⟨rfl, hsame.trans hnodes, hph⟩
  | succ budget =>
    rw [walk_succ]
    refine unfolds_tried ((advance_rebuffed h hnodes hst (steps + 1)).imp ?_)
    rintro (e | progress) ph' hph
    · exact .inr hph
    · obtain ⟨rep, rfl, hrebuffed⟩ := hph
      exact .inr hrebuffed

end Scene

end Turn

end Dialogue
