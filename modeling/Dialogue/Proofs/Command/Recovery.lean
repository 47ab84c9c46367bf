import Dialogue.Proofs.Registry.Shelves
import Dialogue.Proofs.Turn.InStep
import Dialogue.Proofs.Turn.Stages

/-! # Recovery

After each node that leads on, the stored row is all that is left of a turn if the engine dies. The
session that is read off it is the one that the turn has in hand, but only if all numbers of the
row are read as they were written. Then the turn of a recovery goes on where the lost one was cut:
it runs the nodes that were left and makes the calls that were left, and it comes to the same
session.

* `walk_alongside`: a walk with a larger budget goes alongside one that does not use up its own.
* `recovers`: a recovery equals the uninterrupted turn if the stored session reads back and its
  version compiles as before.
* `unrecovered_misread`: it does not if a number of the session is read as another one. -/

namespace Dialogue

namespace Turn

open Program Procedure World

namespace Scene

variable {sc : Scene} {e : Nat → Moment} {w : World} {s : Session} {st : Step}

/-! ### Walks in step -/

/-- The turn was neither cut nor did it run out of nodes. -/
structure Whole (rep : Report) : Prop where
  ending : rep.ending ≠ .aborted
  budget : ∀ h, rep.session.halt = some h → h.kind ≠ .stepBudget

variable {sid : String} {w₀ v₀ v : World} {t : Session} {e' : Nat → Moment}

/-- **A walk** with a larger budget goes alongside one that does not use up its own. -/
theorem walk_alongside (hw₀ : w₀.store.registered = true) (spare : Nat)
    {budget more steps steps' : Nat} (hs : s.id = sid) (hst : s.bare = t.bare)
    (hsteps : steps = steps' + more) (h : Abreast sid w₀ v₀ w v)
    (he : ∀ i, sc.Same w₀.store (e i) (e' i)) {rep : Report}
    (hrep : (w.live e (sc.walk budget steps s st).run).2.2 = .ok rep) (hwhole : Whole rep) :
    ∃ rep', (v.live e' (sc.walk (budget + spare) steps' t st).run).2.2 = .ok rep' ∧
      rep.Alongside more rep' ∧
      Abreast sid w₀ v₀ (w.live e (sc.walk budget steps s st).run).2.1
        (v.live e' (sc.walk (budget + spare) steps' t st).run).2.1 := by
  have hshows {s : Session} {w v : World} (hs : s.id = sid) (h : Abreast sid w₀ v₀ w v) :
      ∃ x, w.Shows s.id x := by
    obtain ⟨x, -, -, hx, -⟩ := h.rows
    exact ⟨x.status, h.registered.1, _, hs ▸ hx, SessionRow.status?_ofSession x⟩
  induction budget generalizing steps steps' s t st w v e e' with
  | zero =>
    -- the walk would end with the halt of an exhausted budget
    obtain ⟨x, hw⟩ := hshows hs h
    have hstop := (exhausted_given sc st steps hw).live (e := e) fun _ => trivial
    rw [hrep] at hstop
    rcases hstop with hcut | ⟨halt, hhalt, hkind⟩
    · exact absurd hcut hwhole.ending
    · exact absurd hkind (hwhole.budget _ hhalt)
  | succ budget ih =>
    obtain ⟨x, hw⟩ := hshows hs h
    have hgoes : (sc.advance s st (steps + 1)).run.Given (fun _ => True) (GoesOn s st.node) w :=
      advance_on (steps + 1)
    have hon := hgoes.live (e := e) fun _ => trivial
    have hsteps' : steps + 1 = steps' + 1 + more := by omega
    obtain ⟨hstep, hrest⟩ := (advance_inStep hw₀ hs hst st hsteps' h).live he
    rw [show budget + 1 + spare = budget + spare + 1 by omega, walk_succ, walk_succ, live_tried,
      live_tried] at *
    generalize w.live e (sc.advance s st (steps + 1)).run = p at hon hstep hrest hrep ⊢
    generalize v.live e' (sc.advance t st (steps' + 1)).run = q at hstep hrest ⊢
    obtain ⟨e₁, w₁, a⟩ := p
    obtain ⟨e₁', v₁, b⟩ := q
    match a, b with
    | .error _, _ => cases hrep
    | .ok _, .error _ => exact hstep.elim
    | .ok a, .ok b =>
      obtain ⟨hab, h⟩ := hstep
      cases hab with
      | @on s' t' next hst =>
        obtain ⟨-, vars, spoken, now, rfl⟩ := hon s' next rfl
        exact ih hs hst hsteps' h hrest hrep
      | done hab =>
        cases hrep
        exact ⟨_, rfl, hab, h⟩

end Scene

end Turn

/-! ### Recoveries -/

/-- What is left of a world after a crash that lost a session in hand: the row of the session, the
schedules, a version row that compiles to the flow, and maybe some compiled flows. -/
structure World.Survives (s : Session) (f : Flow) (w v : World) : Prop where
  kept : v.Keeps s
  schedules : v.store.schedules = w.store.schedules
  flow : v.store.versionFlow f.id f.version = .ok f
  backs : v.store.Backs v.compiled

/-- How many questions more a look-up of the flow asks if it is not at hand. -/
def World.fetches (v : World) (f : Flow) : Nat :=
  if (v.compiled.get? (VersionRow.key f.id f.version)).isSome then 0 else 2

/-- The world with other flows at hand, at another time. -/
def World.stocked (v : World) (compiled : Cache Flow) (time : Instant) : World :=
  { v with compiled, instant := time }

namespace Command

open Program Procedure World Turn Scene

variable {sid node : String} {f : Flow} {s : Session} {w v : World}

/-- The look-up of a version. -/
theorem version_live (hv : Survives s f w v) (e : Nat → Moment) :
    ∃ compiled time, v.live e (Registry.version f.id f.version).run =
      (fun i => e (i + (v.fetches f + 1)), v.stocked compiled time, .ok f) := by
  have hask : v.live e (question (.cached (VersionRow.key f.id f.version))) =
    (fun i => e (i + 1), v.timed (e 0).time, v.compiled.get? (VersionRow.key f.id f.version)) := rfl
  unfold Registry.version fetches
  rw [live_lift, hask]
  cases hc : v.compiled.get? (VersionRow.key f.id f.version) with
  | some f' =>
    have hf := (hv.backs _ _ hc).eq
    rw [hv.flow] at hf
    cases hf
    exact ⟨v.compiled, (e 0).time, rfl⟩
  | none =>
    obtain ⟨g, hg, hcompile⟩ := Store.versionFlow_eq_ok hv.flow
    have hload : live (fun i => e (i + 1)) (loadVersion f.id f.version).run (v.timed (e 0).time) =
        (fun i => e (i + 2), v.timed (e 1).time, v.store.loadVersion f.id f.version) := rfl
    have hcomp : Registry.compile f.id f.version g = pure f := by
      unfold Registry.compile
      rw [hcompile]
      rfl
    dsimp only
    rw [live_tried, hload, hg]
    dsimp only
    rw [hcomp]
    exact ⟨v.compiled.set (VersionRow.key f.id f.version) f, (e 2).time, rfl⟩

/-- What a recovery does: its turn goes on at the pending node. -/
theorem recover_live (settings : Settings) (hv : Survives s f w v)
    (hread : (SessionRow.ofSession s).toSession = .ok s) (hs : s.id = sid)
    (hopen : s.status ≠ .closed) (hflow : s.flowId = f.id) (hver : s.flowVersion = f.version)
    (hnode : s.pendingNode = some node) (e : Nat → Moment) :
    ∃ compiled time,
      let r := (v.stocked compiled time).live (fun i => e (i + (v.fetches f + 3)))
        (Scene.turn ⟨sid, f, settings⟩ s (.run node)).run
      v.live e (handle settings sid .recover).run =
        (fun i => r.1 (i + 1), r.2.1.timed (r.1 0).time, r.2.2) := by
  have hload : v.live e (loadSession sid).run =
      (fun i => e (i + 1), v.timed (e 0).time, v.store.loadSession sid) := rfl
  have hrow : v.store.loadSession sid = .ok s := by
    rw [← hs, Store.loadSession_eq hv.kept.1 hv.kept.2, hread]
  have hv' : Survives s f w (v.timed (e 0).time) := ⟨hv.kept, hv.schedules, hv.flow, hv.backs⟩
  have hclosed : s.isClosed = false := by
    simp only [Session.isClosed, hopen, decide_false]
  obtain ⟨compiled, time, hv'⟩ := version_live hv' fun i => e (i + 1)
  have hversion : live (fun i => e (i + 1)) (Registry.version f.id f.version).run
      (v.timed (e 0).time) = (fun i => e (i + (v.fetches f + 1) + 1), v.stocked compiled time,
        .ok f) := hv'
  unfold handle
  rw [live_tried, hload, hrow]
  dsimp only
  rw [hclosed]
  simp only [recoverSession, hnode, hflow, hver]
  rw [if_neg Bool.false_ne_true, live_tried, hversion]
  dsimp only
  unfold Command.turn
  rw [live_lift]
  refine ⟨compiled, (e (v.fetches f + 2)).time, ?_⟩
  have hopened : live (fun i => e (i + (v.fetches f + 1) + 1)) (question .openTurn)
      (v.stocked compiled time) = (fun i => e (i + (v.fetches f + 3)),
        v.stocked compiled (e (v.fetches f + 2)).time, ()) := by
    have hshift (i : Nat) : i + 1 + (v.fetches f + 1) + 1 = i + (v.fetches f + 3) := by omega
    have hfirst : 0 + (v.fetches f + 1) + 1 = v.fetches f + 2 := by omega
    refine Prod.ext (funext fun i => congrArg e (hshift i)) (Prod.ext ?_ rfl)
    exact congrArg (fun i => v.stocked compiled (e i).time) hfirst
  rw [hopened, live_lift]
  rw [show ({ s with flowVersion := f.version } : Session) = s by rw [← hver]]
  rfl

/-- **A recovery** equals the uninterrupted turn, if the session that was kept last is read as it
was written, and the stored version of its flow compiles to the one that the turn had in hand. -/
theorem recovers {sc : Scene} {e e' : Nat → Moment} {s₀ : Session} {st : Turn.Step} {q : Stage}
    {rep : Report} (hid : s₀.id = sc.session) (hflow : s₀.flowId = sc.flow.id)
    (hver : s₀.flowVersion = sc.flow.version) (hopen : s₀.status ≠ .closed)
    (hrep : (w.live e (sc.turn s₀ st).run).2.2 = .ok rep) (hwhole : Whole rep)
    (hq : Relation.TransGen sc.LeadsOn (sc.outset e w s₀ st) q)
    (hread : (SessionRow.ofSession q.session).toSession = .ok q.session)
    (hv : Survives q.session sc.flow q.world v)
    (he : ∀ i, sc.Same q.world.store (q.moments i) (e' (i + (v.fetches sc.flow + 3)))) :
    ∃ rep', (v.live e' (handle sc.settings sc.session .recover).run).2.2 = .ok rep' ∧
      rep.Alongside q.steps rep' ∧ Abreast sc.session q.world v
        (w.live e (sc.turn s₀ st).run).2.1
        (v.live e' (handle sc.settings sc.session .recover).run).2.1 := by
  obtain ⟨hrest, hbudget, hunder, hkept, node, hpending, hstep⟩ := stage_facts underway_outset hq
  have hs : q.session.id = sc.session := hunder.id.trans hid
  obtain ⟨compiled, time, hrun⟩ := recover_live sc.settings hv hread hs
    (hunder.status ▸ hopen) (hunder.flowId.trans hflow) (hunder.flowVersion.trans hver) hpending e'
  have hbegun : Turn.begun q.session = q.session := by
    unfold Turn.begun
    rw [← hunder.halt, ← hunder.currentNode]
  have habreast : Abreast sc.session q.world v q.world (v.stocked compiled time) := by
    refine ⟨⟨hkept.1, hv.kept.1⟩, ⟨q.session, q.session, rfl, hs ▸ hkept.2, hs ▸ hv.kept.2⟩,
      ⟨rfl, hv.schedules⟩, ⟨[], [], ?_, ?_, rfl⟩, ⟨[], [], ?_, ?_, rfl⟩⟩
    all_goals exact (List.append_nil _).symm
  rw [← rest_outset, hrest, rest, hstep] at hrep ⊢
  have hbudget : q.budget + q.steps = sc.settings.engine.maxSteps := hbudget
  have hsteps : q.steps = 0 + q.steps := (Nat.zero_add _).symm
  obtain ⟨rep', hrep', halong, hend⟩ := walk_alongside hkept.1 q.steps hs rfl
    hsteps habreast he hrep hwhole
  rw [hrun]
  unfold Scene.turn
  rw [hbegun, ← hbudget]
  exact ⟨rep', hrep', halong, hend.registered, hend.rows, hend.schedules, hend.deliveries,
    hend.signals⟩

/-! ### A greeting, and a number that is misread -/

/-- A flow that says one thing. -/
def greeting : Graph :=
  ⟨[⟨"start", "start", .null, none⟩, ⟨"m", "message", .obj [("text", .str "Hi")], none⟩],
    [⟨"e1", "start", "m", none⟩]⟩

/-- The flow, compiled. -/
def greetingFlow : Flow :=
  ⟨"f1", 1, [⟨"start", .start, .null, .start none⟩,
    ⟨"m", .message, .obj [("text", .str "Hi")], .message "Hi"⟩],
    [⟨"e1", "start", "m", .plain⟩], [], [], "start"⟩

/-- The turns of a session on that flow. -/
def greetingScene : Scene := ⟨"s1", greetingFlow, .default⟩

/-- A session of that flow, which may be about to run a node. -/
def greeted (vars : Variables) (pendingNode : Option String) : Session :=
  { Session.new "s1" "f1" 1 0 with vars, pendingNode }

/-- The flow is stored. -/
def greetingLibrary : World :=
  ((World.new .empty 0).answer ⟨false, .unreachable⟩ (.saveVersion "f1" 1 greeting 0)).1

/-- The flow and a session are stored. -/
def greetingWorld (s : Session) : World :=
  (greetingLibrary.answer ⟨false, .unreachable⟩ (.createSession s)).1

theorem versionFlow_greeting : greetingLibrary.store.versionFlow "f1" 1 = .ok greetingFlow := by
  have hreads : greeting.ReadsBack := by
    refine Graph.readsBack ?_ (by decide) rfl
    simp [greeting, Graph.toJson, Graph.Node.toJson, Graph.Edge.toJson, Json.Legible,
      Json.LegibleFields, Json.LegibleItems]
  have hrow : greetingLibrary.store.versions.row? (VersionRow.key "f1" 1) =
    some (.ofGraph "f1" 1 greeting 0) := rfl
  have hgraph : greetingLibrary.store.loadVersion "f1" 1 = .ok greeting :=
    (Store.loadVersion_eq rfl hrow).trans (Store.toGraph_ofGraph hreads)
  have hcompile : Flow.compile "f1" 1 greeting = .ok greetingFlow := rfl
  rw [Store.versionFlow_eq hgraph, hcompile]
  rfl

section
variable (vars : Variables)

/-- The whole turn on the flow. -/
def greetingTurn : (Nat → Moment) × World × Outcome Report :=
  (greetingWorld (greeted vars none)).live calmly
    (greetingScene.turn (greeted vars none) (.run "start")).run

/-- Its first step. -/
def greetingStep : (Nat → Moment) × World × Outcome Progress :=
  (greetingWorld (greeted vars none)).live calmly
    (greetingScene.advance (greeted vars none) (.run "start") 1).run

/-- Where the turn has come with that step. -/
def greetingStage : Stage :=
  ⟨(greetingStep vars).1, 99, 1, greeted vars (some "m"), .run "m", (greetingStep vars).2.1⟩

/-- A recovery, when there is nothing left but what was stored then. -/
def greetingRecovery : (Nat → Moment) × World × Except Failure Report :=
  (greetingWorld (greeted vars (some "m"))).live calmly
    (handle greetingScene.settings greetingScene.session .recover).run

/-- The turn leads there. -/
def GreetingLeads : Prop :=
  Relation.TransGen greetingScene.LeadsOn
    (greetingScene.outset calmly (greetingWorld (greeted vars none)) (greeted vars none)
      (.run "start")) (greetingStage vars)

/-- The crash leaves what a recovery needs. -/
def GreetingSurvives : Prop :=
  Survives (greeted vars (some "m")) greetingFlow (greetingStage vars).world
    (greetingWorld (greeted vars (some "m")))

variable {vars}

theorem leads_greeting (h : (greetingStep vars).2.2 = .ok (.on (greeted vars (some "m")) "m")) :
    GreetingLeads vars :=
  .single (.on (Prod.ext rfl (Prod.ext rfl h)))

theorem survives_greeting
    (h : (greetingStep vars).2.1.store.schedules = Store.empty.schedules) :
    GreetingSurvives vars where
  kept := ⟨rfl, rfl⟩
  schedules := h.symm
  flow := (Store.versionFlow_congr rfl rfl).trans versionFlow_greeting
  backs key f hf := by
    have hempty : (greetingWorld (greeted vars (some "m"))).compiled = .empty := rfl
    rw [hempty] at hf
    cases hf

/-- All moments are the same. -/
theorem same_greeting (vars : Variables) (i n : Nat) :
    greetingScene.Same (greetingStage vars).world.store ((greetingStage vars).moments i)
      (calmly n) := by
  obtain ⟨k, hk⟩ := live_moments calmly
    (greetingScene.advance (greeted vars none) (.run "start") 1).run
    (greetingWorld (greeted vars none))
  have hi : (greetingStage vars).moments i = calmly n := congrFun hk i
  rw [hi]
  exact ⟨rfl, fun _ _ => rfl⟩

end

/-- A result of which something is known. -/
theorem exists_ok {α β : Type} {o : Outcome α} {f : α → β} {b : β}
    (h : o.toOption.map f = some b) : ∃ a, o = .ok a ∧ f a = b := by
  obtain ⟨a, ho, hf⟩ := Option.map_eq_some_iff.mp h
  exact ⟨a, Outcome.eq_ok_of_toOption ho, hf⟩

/-- What a report says about the end of a turn. -/
def known (rep : Report) : Ending × Option Halt × Variables :=
  (rep.ending, rep.session.halt, rep.session.vars)

theorem whole_of_known {rep : Report} {vars : Variables} (h : known rep = (.ended, none, vars)) :
    Whole rep := by
  have hending : rep.ending = .ended := congrArg (·.1) h
  have hhalt : rep.session.halt = none := congrArg (·.2.1) h
  exact ⟨by rw [hending]; nofun, fun x hx => by rw [hhalt] at hx; cases hx⟩

/-- The greeting is said after the crash. -/
theorem recovers_greeted : ∃ rep rep', GreetingLeads [] ∧ GreetingSurvives [] ∧
    (greetingTurn []).2.2 = .ok rep ∧ (greetingRecovery []).2.2 = .ok rep' ∧
    rep.Alongside 1 rep' := by
  have hleads : GreetingLeads [] := leads_greeting rfl
  have hsurvives : GreetingSurvives [] := survives_greeting rfl
  obtain ⟨rep, hrep, hknown⟩ := exists_ok (f := known) (b := (.ended, none, []))
    (o := (greetingTurn []).2.2) (by decide +kernel)
  have hread : (SessionRow.ofSession (greeted [] (some "m"))).toSession =
    .ok (greeted [] (some "m")) := by rfl
  have hsame (i : Nat) := same_greeting [] i
    (i + ((greetingWorld (greeted [] (some "m"))).fetches greetingFlow + 3))
  obtain ⟨rep', hrep', halong, -⟩ := recovers rfl rfl rfl (by nofun) hrep
    (whole_of_known hknown) hleads hread hsurvives hsame
  refine ⟨rep, rep', hleads, hsurvives, hrep, ?_, halong⟩
  unfold greetingRecovery
  exact hrep'

/-- Variables with a number that is misread. -/
def misreadVars : Variables := [("x", .float unsteady)]

/-- **A recovery that comes to something else**: the session is read with another number. -/
theorem unrecovered_misread : ∃ rep, GreetingLeads misreadVars ∧ GreetingSurvives misreadVars ∧
    (∀ i n, greetingScene.Same (greetingStage misreadVars).world.store
      ((greetingStage misreadVars).moments i) (calmly n)) ∧
    (greetingTurn misreadVars).2.2 = .ok rep ∧ Whole rep ∧
    ¬ ∃ rep', (greetingRecovery misreadVars).2.2 = .ok rep' ∧ rep.Alongside 1 rep' := by
  obtain ⟨rep, hrep, hknown⟩ := exists_ok (f := known) (b := (.ended, none, misreadVars))
    (o := (greetingTurn misreadVars).2.2) (by decide +kernel)
  obtain ⟨rep', hrep', hvars'⟩ := exists_ok (f := fun rep => rep.session.vars)
    (b := [("x", .float (.ofBits 4499096027743125506))])
    (o := (greetingRecovery misreadVars).2.2) (by decide +kernel)
  refine ⟨rep, leads_greeting rfl, survives_greeting rfl, same_greeting _, hrep,
    whole_of_known hknown, ?_⟩
  rintro ⟨rep'', hrep'', halong⟩
  cases hrep'.symm.trans hrep''
  have hvars : rep.session.vars = misreadVars := congrArg (·.2.2) hknown
  have heq := Session.vars_eq_of_bare halong.session
  rw [hvars, hvars'] at heq
  exact absurd heq (by decide +kernel)

end Command

end Dialogue
