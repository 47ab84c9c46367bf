import Dialogue.Proofs.Session.Mirror
import Dialogue.Proofs.Turn.Budget
import Dialogue.Proofs.Turn.Outbound
import Dialogue.Proofs.Turn.Shared

/-! # Nodes that fail

A node that fails has written no variable. Unless it refuses the reply the turn halts at it, the
session is kept with one more message, which is the only thing that the chat backend is told.

* `commit_told`, `stop_told`: what the chat backend is told of a session that is kept.
* `failing_given`: what the turn does behind a node that failed.
* `rests_failed`: the turn is over with such a node.
* `turn_fails`: wherever a turn comes to such a node. -/

namespace Dialogue.Turn.Scene

open Program Procedure World Shared

/-! ### What the chat backend is told -/

section
variable {sc : Scene} {P : Moment → Prop} {s : Session} {w : World} {told : List Delivery}

/-- What the chat backend is told of a session that is kept: the messages and the variables, and
nothing if the session is not kept. -/
def toldOf (s : Session) (spoken : List Message) (delta : Variables) :
    Option Session → List Delivery
  | none => []
  | some _ => spoken.map (.append s.id) ++ if delta.isEmpty then [] else [.persist s.id delta]

theorem told_quiet {α : Type} {p : Program α} {Q : α → Prop} (hp : p.Gives Q)
    (hw : w.deliveries = told) : p.Given P (fun _ w => w.deliveries = told) w :=
  hp.given.imp fun _ _ h => h.2.deliveries.trans hw

theorem told_append (id : String) (spoken : List Message) (hw : w.deliveries = told) :
    (spoken.forM fun m => deliver (.append id m) : Program Unit).Given P
      (fun _ w => w.deliveries = told ++ spoken.map (.append id)) w := by
  induction spoken generalizing told w with
  | nil => exact hw.trans (List.append_nil _).symm
  | cons m rest ih =>
    intro m' _
    have hm : (w.reply m' (.deliver (.append id m))).1.deliveries = told ++ [.append id m] :=
      congrArg (· ++ _) hw
    rw [List.map_cons, List.append_cons]
    exact ih hm

theorem told_save (y : Session) (hw : w.deliveries = told) :
    (saveSession y).run.Given P (fun _ w => w.deliveries = told) w :=
  fun _ _ => (deliveries_change _ _).trans hw

theorem commit_told (spoken : List Message) (delta : Variables) (hw : w.deliveries = told) :
    (commit s spoken delta).run.Given P (fun o w => ∀ kept, o = .ok kept →
      w.deliveries = told ++ toldOf s spoken delta kept) w := by
  have hnone : told = told ++ toldOf s spoken delta none := (List.append_nil _).symm
  unfold commit
  refine given_lift ((told_quiet (gives_question .isAborted trivial) hw).imp fun aborted w hw => ?_)
  split
  · rintro kept ⟨⟩
    exact hw.trans hnone
  refine given_tried ((told_quiet (gives_question (.sessionStatus s.id) trivial) hw).imp ?_)
  rintro (f | status) w hw
  · exact fun _ h => nomatch h
  show Given _ _ (ExceptT.run (if status = .closed then _ else _)) _
  split
  · rintro kept ⟨⟩
    exact hw.trans hnone
  refine given_lift ((told_quiet gives_now hw).imp fun now w hw => ?_)
  refine given_tried ((told_save _ hw).imp ?_)
  rintro (f | _) w hw
  · exact fun _ h => nomatch h
  refine given_lift ((told_append s.id spoken hw).imp fun _ w hw => ?_)
  split
  · rename_i hdelta
    rintro kept ⟨⟩
    rw [toldOf, if_pos hdelta, List.append_nil]
    exact hw
  · rename_i hdelta
    refine given_lift fun m _ => ?_
    rintro kept ⟨⟩
    rw [toldOf, if_neg hdelta, ← List.append_assoc, ← hw]
    rfl

/-- The chat backend is told of a halt only if it is kept, and only of the diagnosis. -/
theorem stop_told (h : Halt) (steps : Nat) (hw : w.deliveries = told) :
    (sc.stop s h steps).run.Given P (fun o w => ∀ rep, o = .ok rep →
      ∃ m, rep.session.messages = s.messages ++ [m] ∧
        w.deliveries = told ++ if rep.ending = .aborted then [] else [.append s.id m]) w := by
  unfold stop
  refine given_lift ((told_quiet (gives_message _) hw).imp fun m w hw => ?_)
  have hcommit := (commit_told (P := P) (s := haltedBy s h m) [m] [] hw).and (commit_on _ _)
  refine given_tried (hcommit.imp ?_)
  rintro (f | _ | s') w ⟨htold, hkept⟩
  · exact fun _ h => nomatch h
  · rintro rep ⟨⟩
    exact ⟨m, rfl, htold none rfl⟩
  · obtain ⟨⟨now, rfl⟩, -⟩ := hkept s' rfl
    refine given_lift ((told_quiet (gives_emit _ _ _) (htold _ rfl)).imp fun _ w hw => ?_)
    rintro rep ⟨⟩
    exact ⟨m, rfl, hw⟩

end

/-! ### Behind a node that failed -/

/-- What the turn does behind a node that failed. -/
def failing (sc : Scene) (s : Session) (node : String) (f : Failure) (steps : Nat) :
    Procedure Report := do
  if f.isSession then throw f
  else
    emit sc.session node (.node (.error f.message))
    sc.stop s ⟨node, haltKind f, f.message, true⟩ steps

/-- What comes of a node that failed: where the reply is refused or the turn is cut, the row is the
one from before and the chat backend is told nothing. Otherwise the turn halts at the node. The
session that is kept differs in the halt, in one more message and in the time of its change, it
waits for nothing, and the chat backend is told of the message only. -/
inductive Failed (sc : Scene) (P : Moment → Prop) (K : Prop) (s : Session) (node : String)
    (f : Failure) (before : SessionRow) (told : List Delivery) : Outcome Report → World → Prop
  | refused {w : World} (hf : f.isSession = true) (hrow : w.HasRow s.id before)
      (htold : w.deliveries = told) : Failed sc P K s node f before told (.error f) w
  | cut {rep : Report} {w : World} (hf : f.isSession = false) (hK : K)
      (hend : rep.ending = .aborted) (hrow : w.HasRow s.id before) (htold : w.deliveries = told) :
      Failed sc P K s node f before told (.ok rep) w
  | halted {rep : Report} {w : World} {m : Message} {now : Millis} (hf : f.isSession = false)
      (hend : rep.ending = .halted)
      (hm : Utterance.Says P ⟨sc.settings.messages.diagnosticPrefix ++ " " ++ f.message, none⟩ m)
      (hnow : TimeIn P now)
      (hsession : rep.session = { s with
        messages := s.messages ++ [m], halt := some ⟨node, haltKind f, f.message, true⟩,
        currentNode := none, pendingNode := none, updateTime := now })
      (hkept : w.Keeps rep.session) (htold : w.deliveries = told ++ [.append s.id m]) :
      Failed sc P K s node f before told (.ok rep) w

section
variable {sc : Scene} {P : Moment → Prop} {K : Prop} {s : Session} {node : String} {f : Failure}
  {before : SessionRow} {told : List Delivery} {x : Status} {w : World}

theorem failing_given (hP : ∀ m, P m → m.circumstance.aborted = true → K)
    (hr : before.status? = .ok x) (hx : x = .closed → K) (steps : Nat)
    (hrow : w.HasRow s.id before) (htold : w.deliveries = told) :
    (sc.failing s node f steps).run.Given P (sc.Failed P K s node f before told) w := by
  unfold failing
  cases hf : f.isSession with
  | true =>
    exact .refused hf hrow htold
  | false =>
    rw [if_neg nofun]
    refine given_lift ((gives_emit _ _ _).given.imp fun _ w' ⟨_, halike⟩ => ?_)
    have hrow := (lasting_hasRow _ _).alike halike hrow
    have hstop : (sc.stop s ⟨node, haltKind f, f.message, true⟩ steps).run.Given P _ w' :=
      stop_given hP hr hx _ steps hrow
    refine (hstop.and (stop_told _ steps (halike.deliveries.trans htold))).imp ?_
    rintro (e | rep) w ⟨hstop, htold⟩
    · exact hstop.elim
    obtain ⟨m, hm, htold⟩ := htold rep rfl
    rcases hstop with ⟨hend, hK, hrow⟩ | ⟨hend, ⟨m', now, hsays, hnow, hsession⟩, hkept⟩
    · rw [hend, if_pos rfl, List.append_nil] at htold
      exact .cut hf hK hend hrow htold
    · rw [hsession] at hm
      obtain rfl : m' = m := List.singleton_inj.mp (List.append_cancel_left hm)
      rw [hend, if_neg nofun] at htold
      exact .halted hf hend hsays hnow hsession hkept htold

end

/-! ### Turns that come to a node that fails -/

/-- What comes of the node of a stage on shared variables, and the variables behind it. -/
def visited (sc : Scene) (p : Stage) (n : Flow.Node) :
    (Nat → Moment) × World × Except Stop Reaction × Variables :=
  p.world.live p.moments ((emitNode sc.session p.step.node .running).bind fun _ =>
    on (sc.visitShared n p.step) p.session.vars)

section
variable {sc : Scene} {p : Stage} {n : Flow.Node} {f : Failure} {vars : Variables}

/-- A node that fails has written nothing, and its visit has failed. -/
theorem visited_failed (hv : (sc.visited p n).2.2 = (.error (.failed f), vars)) :
    vars = p.session.vars ∧ p.world.live p.moments ((emitNode sc.session p.step.node .running).bind
      fun _ => sc.visit n p.step p.session.vars) =
        ((sc.visited p n).1, (sc.visited p n).2.1, .failed f) := by
  unfold visited at hv ⊢
  rw [live_bind] at hv ⊢
  refine ⟨vars_of_stopped hv, ?_⟩
  rw [live_visitShared] at hv
  rw [live_bind, live_visitShared]
  generalize live _ (sc.visit n p.step p.session.vars) _ = visit at hv ⊢
  obtain ⟨e, w, _ | _ | _⟩ := visit <;> cases hv
  rfl

/-- A node that fails has changed nothing that is kept. -/
theorem alike_visited (hv : (sc.visited p n).2.2 = (.error (.failed f), vars)) :
    p.world.Alike (sc.visited p n).2.1 := by
  have hquiet : ((emitNode sc.session p.step.node .running).bind fun _ =>
      sc.visit n p.step p.session.vars).Gives (Visit.Came sc.flow n.action p.step) :=
    gives_bind ((gives_emitNode _ _ _).imp fun _ _ => gives_visit n p.step p.session.vars)
  have hgiven := hquiet.given (P := fun _ => True) (w := p.world)
  have halike := (hgiven.live (e := p.moments) fun _ => trivial).2
  rw [(visited_failed hv).2] at halike
  exact halike

/-- The turn is over with a node that fails. -/
theorem rests_failed (hb : 0 < p.budget) (hn : sc.flow.node? p.step.node = some n)
    (hv : (sc.visited p n).2.2 = (.error (.failed f), vars)) :
    sc.Rests p ((sc.visited p n).2.1.live (sc.visited p n).1
      (sc.failing p.session p.step.node f (p.steps + 1)).run) := by
  have hvisit := (visited_failed hv).2
  generalize sc.visited p n = v at hvisit ⊢
  obtain ⟨e, w, _⟩ := v
  rw [live_bind] at hvisit
  refine ⟨hb, ?_⟩
  unfold outcome advance failing
  simp only [hn]
  rw [live_lift, live_lift, hvisit]
  dsimp only
  split
  · rfl
  · rw [live_lift, live_lift, live_tried]
    rcases live _ (sc.stop _ _ _).run _ with ⟨e, w, f | rep⟩ <;> rfl

/-- The moments of a stage are some of those of the turn. -/
theorem moments_of_reaches {q : Stage} (h : Relation.ReflTransGen sc.LeadsOn p q) (i : Nat) :
    ∃ j, q.moments i = p.moments j := by
  induction h generalizing i with
  | refl => exact ⟨i, rfl⟩
  | tail _ h ih =>
    cases h with
    | @on e e' _ _ s _ st _ w _ h =>
      obtain ⟨k, hk⟩ := live_moments e (sc.advance s st _).run w
      rw [h] at hk
      obtain ⟨j, hj⟩ := ih (k + i)
      exact ⟨j, (congrFun hk i).trans hj⟩

end

section
variable {sc : Scene} {e : Nat → Moment} {w : World} {s : Session} {st : Step} {p : Stage}
  {r : SessionRow} {x : Status}

/-- The row of a stage, and its status. At the outset it is the row from before the turn, and behind
a node it is the one of the session in hand. -/
theorem exists_row_of_reaches (hw : w.HasRow s.id r) (hr : r.status? = .ok x)
    (hp : Relation.ReflTransGen sc.LeadsOn (sc.outset e w s st) p) :
    ∃ before y, p.world.HasRow p.session.id before ∧ before.status? = .ok y ∧
      (y = x ∨ y = s.status) ∧ (if p.steps = 0 then before = r ∧ p.session = begun s
        else before = .ofSession p.session) := by
  rcases Relation.reflTransGen_iff_eq_or_transGen.mp hp with rfl | hp
  · refine ⟨r, x, hw, hr, .inl rfl, ?_⟩
    rw [if_pos (show (sc.outset e w s st).steps = 0 from rfl)]
    exact ⟨rfl, rfl⟩
  · obtain ⟨-, -, hunder, hstored⟩ := stage_facts underway_outset hp
    have hsteps : p.steps ≠ 0 := by
      obtain ⟨_, -, h⟩ := Relation.TransGen.tail'_iff.mp hp
      cases h with
      | on h => exact Nat.succ_ne_zero _
    refine ⟨_, _, hstored.kept, SessionRow.status?_ofSession _, .inr hunder.status, ?_⟩
    rw [if_neg hsteps]

end

/-- **Nodes that fail.** A turn comes to a node and the node fails, whatever it is, whatever the
variables are and whatever the customer replied. Then it has written no variable, although it could
have done so at any time, and the turn is over with it as `Failed` says: unless it is cut or the
reply was refused it halts, and keeps the session in hand with the diagnosis and the halt. What it
keeps of the variables is what the row had before the node; only where the node is the first one of
the turn it depends on the session that the turn took up, which has to have the variables of the
row. -/
theorem turn_fails {sc : Scene} {e : Nat → Moment} {w : World} {s : Session} {st : Step}
    {p : Stage} {r : SessionRow} {x : Status} {n : Flow.Node} {f : Failure} {vars : Variables}
    (hw : w.HasRow s.id r) (hr : r.status? = .ok x)
    (hp : Relation.ReflTransGen sc.LeadsOn (sc.outset e w s st) p) (hb : 0 < p.budget)
    (hn : sc.flow.node? p.step.node = some n)
    (hv : (sc.visited p n).2.2 = (.error (.failed f), vars)) :
    let out := w.live e (sc.turn s st).run
    vars = p.session.vars ∧ ∃ before, p.world.HasRow p.session.id before ∧
      sc.Failed (fun m => ∃ i, m = e i) (Stops e x s) p.session p.step.node f before
        p.world.deliveries out.2.2 out.2.1 ∧
      ((SessionRow.ofSession p.session).vars = before.vars ↔
        0 < p.steps ∨ (Json.obj s.vars).text = r.vars) := by
  intro out
  obtain ⟨before, y, hrow, hstatus, hy, hbefore⟩ := exists_row_of_reaches hw hr hp
  have hout : out = _ := (turn_rests hp (rests_failed hb hn hv)).1
  refine ⟨(visited_failed hv).1, before, hrow, ?_, ?_⟩
  · have halike := alike_visited hv
    have hstops (m : Moment) (hm : ∃ i, m = e i) (ha : m.circumstance.aborted = true) :
        Stops e x s := by
      obtain ⟨i, rfl⟩ := hm
      exact .inl ⟨i, ha⟩
    have hclosed (hc : y = .closed) : Stops e x s :=
      .inr (hy.imp (·.symm.trans hc) (·.symm.trans hc))
    obtain ⟨k, hk⟩ : ∃ k, (sc.visited p n).1 = fun i => p.moments (k + i) := live_moments _ _ _
    rw [hout]
    refine (failing_given hstops hstatus hclosed _ ((lasting_hasRow _ _).alike halike hrow)
      halike.deliveries).live fun i => ?_
    rw [hk]
    exact moments_of_reaches hp (k + i)
  · by_cases hsteps : p.steps = 0
    · rw [if_pos hsteps] at hbefore
      rw [hbefore.1, hbefore.2, hsteps]
      exact ⟨.inr, fun h => h.resolve_left (Nat.lt_irrefl 0)⟩
    · rw [if_neg hsteps] at hbefore
      exact ⟨fun _ => .inl (Nat.pos_of_ne_zero hsteps), fun _ => by rw [hbefore]⟩

/-! ### A jump to nowhere -/

/-- The node jumps to an anchor that there is not. -/
def jumper : Flow.Node := ⟨"g", .goto, .null, .goto "nowhere"⟩

/-- Its turns. -/
def jumping : Scene :=
  ⟨"s1", ⟨"f1", 1, [⟨"start", .start, .null, .start none⟩, jumper], [⟨"e1", "start", "g", .plain⟩],
    [], [], "start"⟩, .default⟩

/-- Why the node fails. -/
def astrayFailure : Failure := .plain .graph "anchor 'nowhere' not found"

/-- The node fails behind the start. -/
theorem turn_fails_jumping : ∃ p rep,
    circlingWorld.HasRow "s1" (.ofSession circling) ∧
    Relation.ReflTransGen jumping.LeadsOn
      (jumping.outset calmly circlingWorld circling (.run "start")) p ∧
    p.steps = 1 ∧ p.step = .run "g" ∧
    (jumping.visited p jumper).2.2 = (.error (.failed astrayFailure), []) ∧
    (circlingWorld.live calmly (jumping.turn circling (.run "start")).run).2.2 = .ok rep ∧
    rep.ending = .halted ∧ rep.session.vars = [] ∧
    rep.session.halt = some ⟨"g", .graphIntegrity, astrayFailure.message, true⟩ := by
  have hw : circlingWorld.HasRow circling.id (.ofSession circling) := ⟨rfl, rfl⟩
  have hr : (SessionRow.ofSession circling).status? = .ok .bot := rfl
  have hon : ∃ p, Relation.ReflTransGen jumping.LeadsOn
      (jumping.outset calmly circlingWorld circling (.run "start")) p ∧ p.steps = 1 ∧
        0 < p.budget ∧ p.step = .run "g" ∧
        (jumping.visited p jumper).2.2 = (.error (.failed astrayFailure), []) :=
    ⟨_, .single (.on rfl), rfl, by decide, rfl, rfl⟩
  obtain ⟨p, hp, hsteps, hb, hstep, hv⟩ := hon
  have hn : jumping.flow.node? p.step.node = some jumper := by rw [hstep]; rfl
  obtain ⟨hvars, before, -, hfailed, -⟩ := turn_fails hw hr hp hb hn hv
  have hstops : ¬ Stops calmly .bot circling := by
    rintro (⟨i, ha⟩ | ha | ha) <;> cases ha
  generalize circlingWorld.live calmly (jumping.turn circling (.run "start")).run = out at hfailed
  obtain ⟨e, w, o⟩ := out
  cases hfailed with
  | refused hf => cases hf
  | cut _ hK => exact absurd hK hstops
  | @halted rep _ m now _ hend _ _ hsession =>
    refine ⟨p, rep, hw, hp, hsteps, hstep, hv, rfl, hend, ?_, ?_⟩
    · rw [hsession]
      exact hvars.symm
    · rw [hsession, hstep]
      rfl

/-- A session with a value. -/
def holding (v : Json) : Session := { circling with vars := [("x", v)] }

/-- The session is stored. -/
def holdingWorld (v : Json) : World :=
  ((World.new .empty 0).answer ⟨false, .unreachable⟩ (.createSession (holding v))).1

/-- The node is the first one of a turn and halts it. -/
def jumped (v : Json) : Report :=
  ⟨haltedBy (holding v) ⟨"g", .graphIntegrity, astrayFailure.message, true⟩
    ⟨"m1", .bot, "[erro] " ++ astrayFailure.message, none, 0⟩, .halted, 1⟩

/-- **A row that does not stay**: the turn takes up the session that was read, fails at its first
node, and keeps a number that no node has written. -/
theorem unchanged_unsteady :
    let w := holdingWorld (.float unsteady)
    let s := holding (.float (.ofBits 4499096027743125506))
    let out := w.live calmly (jumping.turn s (.run "g")).run
    ∃ r rep, w.HasRow "s1" r ∧ r.toSession = .ok s ∧
      (jumping.visited (jumping.outset calmly w s (.run "g")) jumper).2.2 =
        (.error (.failed astrayFailure), s.vars) ∧
      out.2.2 = .ok rep ∧ rep.ending = .halted ∧ out.2.1.HasRow "s1" (.ofSession rep.session) ∧
      (SessionRow.ofSession rep.session).vars ≠ r.vars := by
  intro w s out
  have hread : (SessionRow.ofSession (holding (.float unsteady))).toSession = .ok s := by
    decide +kernel
  have hrep : out.2.2 = .ok (jumped (.float (.ofBits 4499096027743125506))) := by decide +kernel
  have hrow : out.2.1.store.registered = true ∧ out.2.1.store.row? "s1" =
      some (.ofSession (jumped (.float (.ofBits 4499096027743125506))).session) := by
    decide +kernel
  have hvars : (SessionRow.ofSession s).vars ≠
      (SessionRow.ofSession (holding (.float unsteady))).vars := by decide +kernel
  exact ⟨_, _, ⟨rfl, rfl⟩, hread, rfl, hrep, rfl, hrow, hvars⟩

end Dialogue.Turn.Scene
