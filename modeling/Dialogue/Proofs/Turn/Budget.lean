import Dialogue.Proofs.Turn.Stages
import Dialogue.Proofs.Turn.Revises

/-! # The budget of a turn

A turn takes one node after the other as long as each of them routes on and its budget lasts. Each
node that routes on takes one from the budget, so a turn comes to a last stage: either its budget is
used up there, or the turn is over with the next node. The budget matters to the first sort alone: a
turn of the second sort is the same with every larger one.

* `idle_conclude`, `idle_visited`, `idle_stop`: in the parts of a step no further node begins.
* `outcome_spec`: what a step does to the number of nodes that ran.
* `exists_last`, `exhausted_unique`: the last stage of a turn.
* `turn_exhausted`, `turn_rests`: the two sorts of turns.
* `turn_budget`: what the budget does to a turn. -/

namespace Dialogue

/-! ### Nodes that run -/

/-- The signal tells that a node begins to run. -/
def Signal.startsNode : Signal → Bool
  | .event ⟨_, _, .node (.running _)⟩ => true
  | _ => false

/-- How many nodes have begun to run. -/
def World.ran (w : World) : Nat := w.signals.countP Signal.startsNode

/-- No node begins to run by the question. -/
def Ask.Idle : Ask → Prop
  | .emit s => s.startsNode = false
  | _ => True

theorem Ask.Visiting.idle {a : Ask} (h : a.Visiting) : a.Idle := by
  cases a with
  | emit s =>
    cases s with
    | log l => exact rfl
    | event e => exact h.elim
  | _ => exact trivial

theorem World.ran_answer {a : Ask} (h : a.Idle) (w : World) (c : Circumstance) :
    (w.answer c a).1.ran = w.ran := by
  cases a with
  | emit s =>
    have hs : Signal.startsNode s = false := h
    simp [answer, ran, hs]
  | createSession | saveSession | saveFlow | saveVersion =>
    simp only [answer, change]
    split <;> rfl
  | fresh i => cases i <;> rfl
  | _ => rfl

namespace Program

variable {α β : Type} {ok : Ask → Prop} {P : α → Prop}

theorem Asks.live {p : Program α} (h : p.Asks ok P) (e : Nat → Moment) (w : World) :
    P (w.live e p).2.2 := by
  induction p generalizing e w with
  | done a => exact h
  | ask a next ih => exact ih _ (h.2 _) _ _

/-- Where no node begins to run, as many have begun as before. -/
theorem Asks.ran_live {p : Program α} (h : p.Asks Ask.Idle P) (e : Nat → Moment) (w : World) :
    (w.live e p).2.1.ran = w.ran := by
  induction p generalizing e w with
  | done a => rfl
  | ask a next ih => exact (ih _ (h.2 _) _ _).trans (World.ran_answer h.1 _ _)

end Program

namespace Turn

open Program Procedure World

/-- The turn halted because its budget was used up, whether the halt was kept or the turn was cut
before that. -/
def Report.OutOfBudget (rep : Report) : Prop :=
  ∃ h, rep.session.halt = some h ∧ h.kind = .stepBudget

/-- The stage with more of a budget. -/
def Stage.spare (p : Stage) (more : Nat) : Stage := { p with budget := p.budget + more }

namespace Scene

variable (sc : Scene)

/-- The same with another budget. -/
def allowing (budget : Nat) : Scene :=
  { sc with settings :=
    { sc.settings with engine := { sc.settings.engine with maxSteps := budget } } }

/-- What comes of the next node of a stage. -/
def outcome (p : Stage) : (Nat → Moment) × World × Outcome Progress :=
  p.world.live p.moments (sc.advance p.session p.step (p.steps + 1)).run

/-- The turn is over with the next node of a stage. -/
def Rests (p : Stage) (out : (Nat → Moment) × World × Outcome Report) : Prop :=
  0 < p.budget ∧ sc.outcome p = (out.1, out.2.1, out.2.2.map .done)

/-! ### The way of a turn -/

section
variable {sc} {p q : Stage} {out : (Nat → Moment) × World × Outcome Report}

theorem Rests.rest_eq (h : sc.Rests p out) : sc.rest p = out := by
  obtain ⟨moments, budget, steps, s, st, w⟩ := p
  obtain ⟨hb, hout⟩ := h
  cases budget with
  | zero => exact absurd hb (Nat.lt_irrefl 0)
  | succ budget =>
    have hout : w.live moments (sc.advance s st (steps + 1)).run = _ := hout
    rw [rest, walk_succ, live_tried, hout]
    obtain ⟨e, w, f | rep⟩ := out <;> rfl

theorem LeadsOn.outcome_eq (h : sc.LeadsOn p q) : ∃ next,
    sc.outcome p = (q.moments, q.world, .ok (.on q.session next)) ∧ p.budget = q.budget + 1 ∧
      q.steps = p.steps + 1 := by
  obtain ⟨hon⟩ := h
  exact ⟨_, hon, rfl, rfl⟩

theorem Rests.not_leadsOn (h : sc.Rests p out) : ¬ sc.LeadsOn p q := by
  intro hon
  obtain ⟨next, hnext, -⟩ := hon.outcome_eq
  have hout := hnext.symm.trans h.2
  obtain ⟨e, w, f | rep⟩ := out <;> cases hout

/-- A turn goes on until its budget is used up or it is over with a node. -/
theorem exists_last (sc : Scene) (p : Stage) :
    ∃ q, Relation.ReflTransGen sc.LeadsOn p q ∧ (q.budget = 0 ∨ ∃ out, sc.Rests q out) := by
  obtain ⟨moments, budget, steps, s, st, w⟩ := p
  induction budget generalizing moments steps s st w with
  | zero => exact ⟨_, .refl, .inl rfl⟩
  | succ budget ih =>
    rcases h : sc.outcome ⟨moments, budget + 1, steps, s, st, w⟩ with ⟨e, w', f | ⟨s', next⟩ | rep⟩
    · exact ⟨_, .refl, .inr ⟨(e, w', .error f), Nat.succ_pos _, h⟩⟩
    · obtain ⟨q, hq, hlast⟩ := ih e (steps + 1) s' (.run next) w'
      exact ⟨q, .head (.on h) hq, hlast⟩
    · exact ⟨_, .refl, .inr ⟨(e, w', .ok rep), Nat.succ_pos _, h⟩⟩

/-- Where a turn is over, none of its stages has used up the budget. -/
theorem Rests.budget_pos (h : sc.Rests q out) (hq : Relation.ReflTransGen sc.LeadsOn p q)
    {q' : Stage} (hq' : Relation.ReflTransGen sc.LeadsOn p q') : 0 < q'.budget := by
  have hone : Relator.RightUnique sc.LeadsOn := fun _ _ _ => LeadsOn.unique
  rcases Relation.ReflTransGen.total_of_right_unique hone hq hq' with hgoes | hgoes
  · rcases hgoes.cases_head with rfl | ⟨_, hon, -⟩
    · exact h.1
    · exact absurd hon h.not_leadsOn
  · exact Nat.lt_of_lt_of_le h.1 (budget_le hgoes)

/-- With more of a budget the turn goes on alike. -/
theorem LeadsOn.spare (h : sc.LeadsOn p q) (more budget : Nat) :
    (sc.allowing budget).LeadsOn (p.spare more) (q.spare more) := by
  obtain ⟨hon⟩ := h
  unfold Stage.spare
  rw [Nat.add_right_comm]
  exact .on hon

theorem Rests.spare (h : sc.Rests p out) (more budget : Nat) :
    (sc.allowing budget).Rests (p.spare more) out :=
  ⟨Nat.add_pos_left h.1 more, h.2⟩

end

/-! ### What a step reports -/

/-- The step does not halt the session because of the budget, and counts itself. -/
def Accounts (steps : Nat) : Progress → Prop
  | .on s _ => s.halt = none
  | .done rep => rep.steps = steps ∧ ¬ rep.OutOfBudget

section
variable {sc} {s : Session} {node : String} {steps : Nat}

theorem idle_append (id : String) (spoken : List Message) :
    (spoken.forM fun m => deliver (.append id m) : Program Unit).Asks Ask.Idle
      fun _ => True := by
  induction spoken with
  | nil => exact trivial
  | cons m rest ih => exact ⟨trivial, fun _ => ih⟩

theorem idle_message (u : Utterance) : (botMessage u).Asks Ask.Idle fun _ => True :=
  ⟨trivial, fun _ => ⟨trivial, fun _ => trivial⟩⟩

theorem idle_messages (us : List Utterance) :
    (us.mapM botMessage).Asks Ask.Idle fun _ => True := by
  induction us with
  | nil => exact trivial
  | cons u rest ih =>
    rw [List.mapM_cons]
    exact asks_bind ((idle_message u).imp fun _ _ => asks_bind (ih.imp fun _ _ => trivial))

theorem idle_commit (spoken : List Message) (delta : Variables) :
    (commit s spoken delta).run.Asks Ask.Idle fun o => ∀ kept, o = .ok kept →
      ∀ s', kept = some s' → ∃ now, s' = stamped s now := by
  unfold commit
  refine asks_lift ⟨trivial, fun aborted => ?_⟩
  show Asks _ _ (ExceptT.run (if aborted = true then _ else _))
  split
  · rintro kept ⟨⟩ s' ⟨⟩
  refine asks_then ⟨trivial, fun o status _ => ?_⟩
  split
  · rintro kept ⟨⟩ s' ⟨⟩
  refine asks_lift ⟨trivial, fun now => ?_⟩
  refine asks_then ⟨trivial, fun o _ _ => ?_⟩
  refine asks_lift ((idle_append _ _).imp fun _ _ => ?_)
  have hkept : ∀ kept, (.ok (some (stamped s now.millis)) : Outcome _) = .ok kept →
      ∀ s', kept = some s' → ∃ now, s' = stamped s now := by
    rintro _ ⟨⟩ _ ⟨⟩
    exact ⟨now.millis, rfl⟩
  split
  · exact hkept
  · exact ⟨trivial, fun _ => hkept⟩

theorem idle_stop (sc : Scene) (s : Session) (h : Halt) (steps : Nat) :
    (sc.stop s h steps).run.Asks Ask.Idle fun o => ∀ rep, o = .ok rep →
      rep.steps = steps ∧ rep.session.halt = some h := by
  unfold stop
  refine asks_lift ⟨trivial, fun id => ⟨trivial, fun now => ?_⟩⟩
  refine asks_then ((idle_commit _ _).imp fun o ho kept hkept => ?_)
  cases kept with
  | none =>
    rintro rep ⟨⟩
    exact ⟨rfl, rfl⟩
  | some s' =>
    obtain ⟨now, rfl⟩ := ho _ hkept s' rfl
    refine asks_lift ⟨rfl, fun _ => ?_⟩
    rintro rep ⟨⟩
    exact ⟨rfl, rfl⟩

/-- The halt of a node is none of the budget. -/
theorem idle_halt (sc : Scene) (s : Session) (steps : Nat) {h : Halt}
    (hk : h.kind ≠ .stepBudget) :
    (do return .done (← sc.stop s h steps) : Procedure Progress).run.Asks Ask.Idle
      fun o => ∀ p, o = .ok p → Accounts steps p ∧ ∃ rep, p = .done rep := by
  refine asks_then ((idle_stop sc s h steps).imp fun o ho rep hrep => ?_)
  obtain ⟨hsteps, hhalt⟩ := ho rep hrep
  rintro p ⟨⟩
  refine ⟨⟨hsteps, fun ⟨h', hh', hk'⟩ => hk ?_⟩, rep, rfl⟩
  rw [hhalt] at hh'
  cases hh'
  exact hk'

theorem not_outOfBudget {ending : Ending} (hs : s.halt = none) :
    ¬ (Report.mk s ending steps).OutOfBudget := by
  rintro ⟨h, hh, -⟩
  have hh : s.halt = some h := hh
  rw [hs] at hh
  cases hh

/-- A turn that is over without a halt. -/
theorem idle_over {p : Program Unit} {ending : Ending} (hp : p.Asks Ask.Idle fun _ => True)
    (hs : s.halt = none) :
    ((p : Procedure Unit) >>= fun _ => pure (Progress.done ⟨s, ending, steps⟩)).run.Asks Ask.Idle
      fun o => ∀ p, o = .ok p → Accounts steps p := by
  refine asks_lift (hp.imp fun _ _ => ?_)
  rintro p ⟨⟩
  exact ⟨rfl, not_outOfBudget hs⟩

theorem idle_emit (session node : String) (e : SessionEvent) :
    (emitSession session node e).Asks Ask.Idle fun _ => True := ⟨rfl, fun _ => trivial⟩

theorem idle_stopped (session node : String) :
    (emitNode session node .stopped).Asks Ask.Idle fun _ => True :=
  ⟨trivial, fun _ => ⟨rfl, fun _ => trivial⟩⟩

theorem idle_succeeded (session node : String) :
    (emitNode session node .succeeded).Asks Ask.Idle fun _ => True :=
  ⟨trivial, fun _ => ⟨rfl, fun _ => trivial⟩⟩

theorem kind_route {f : Flow} {t : Transition} {kind : Halt.Kind} {text : String} {again : Bool}
    (h : t.route f node = .halt kind text again) : kind ≠ .stepBudget := by
  cases t with
  | next handle | branch handle | only =>
    simp only [Transition.route] at h
    split at h <;> cases h <;> simp
  | unmatched => cases h; simp
  | _ => cases h

theorem idle_follow (hs : s.halt = none) {r : Route}
    (hr : ∀ kind text again, r = .halt kind text again → kind ≠ .stepBudget) :
    (sc.follow s node r steps).run.Asks Ask.Idle fun o => ∀ p, o = .ok p → Accounts steps p := by
  cases r with
  | go next => rintro p ⟨⟩; exact hs
  | finish | pause => exact idle_over (idle_emit _ _ _) hs
  | handoff | close => exact asks_lift ⟨trivial, fun _ => idle_over (idle_emit _ _ _) hs⟩
  | halt kind text again =>
    exact (idle_halt sc s steps (hr kind text again rfl)).imp fun _ ho p hp => (ho p hp).1

theorem idle_conclude (hs : s.halt = none) (o : Output) :
    (sc.conclude s node o steps).run.Asks Ask.Idle fun o => ∀ p, o = .ok p → Accounts steps p := by
  unfold conclude
  refine asks_lift ((idle_messages _).imp fun spoken _ => ?_)
  refine asks_then ((idle_commit _ _).imp fun _ ho kept hkept => ?_)
  cases kept with
  | none => exact idle_over (idle_stopped _ _) ((halt_after ..).trans hs)
  | some s' =>
    obtain ⟨now, rfl⟩ := ho _ hkept s' rfl
    have hs' : (stamped (after s node o.vars spoken (o.transition.route sc.flow node)) now).halt =
        none := (halt_after ..).trans hs
    exact asks_lift ((idle_succeeded _ _).imp fun _ _ =>
      idle_follow hs' fun _ _ _ => kind_route)

theorem haltKind_ne (f : Failure) : haltKind f ≠ .stepBudget := by
  unfold haltKind
  split <;> exact nofun

/-- What comes behind the beginning of a node. -/
theorem idle_visited (sc : Scene) (node : String) (steps : Nat) (hs : s.halt = none)
    (n : Flow.Node) (st : Step) :
    (do match ← (sc.visit n st s.vars : Program Visit) with
      | .cut =>
        emitNode sc.session node .stopped
        return .done ⟨s, .aborted, steps⟩
      | .failed f =>
        if f.isSession then throw f
        emit sc.session node (.node (.error f.message))
        return .done (← sc.stop s ⟨node, haltKind f, f.message, true⟩ steps)
      | .finished o => sc.conclude s node o steps : Procedure Progress).run.Asks Ask.Idle
      fun o => ∀ p, o = .ok p → Accounts steps p := by
  refine asks_lift (((asks_visit n st).mono fun _ => Ask.Visiting.idle).imp fun v _ => ?_)
  cases v with
  | cut => exact idle_over (idle_stopped _ _) hs
  | failed f =>
    dsimp only
    split
    · exact fun p hp => nomatch hp
    · refine asks_lift ⟨rfl, fun _ => ?_⟩
      exact (idle_halt sc s steps (haltKind_ne f)).imp fun _ ho p hp => (ho p hp).1
  | finished o => exact idle_conclude hs o

end

section
variable {sc} {p q : Stage} {out : (Nat → Moment) × World × Outcome Report}

theorem ran_running (session node : String) (e : Nat → Moment) (w : World) :
    (w.live e (emitNode session node .running)).2.1.ran = w.ran + 1 := by
  show (w.signals ++ [Signal.event
    ⟨session, node, .node (.running (e 0).time.millis)⟩]).countP _ = _
  rw [List.countP_append]
  rfl

/-- **A step** begins one node at most, and one if it routes on. Unless the session was halted it
does not halt because of the budget. -/
theorem outcome_spec (sc : Scene) (hp : p.session.halt = none) :
    (sc.outcome p).2.1.ran ≤ p.world.ran + 1 ∧
      (∀ s next, (sc.outcome p).2.2 = .ok (.on s next) →
        (sc.outcome p).2.1.ran = p.world.ran + 1) ∧
      ∀ x, (sc.outcome p).2.2 = .ok x → Accounts (p.steps + 1) x := by
  unfold outcome advance
  dsimp only
  cases sc.flow.node? p.step.node with
  | none =>
    have hidle := idle_halt sc p.session (p.steps + 1)
      (h := ⟨p.step.node, .graphIntegrity, missingText p.step.node sc.flow.id, false⟩) nofun
    have hend := hidle.live p.moments p.world
    refine ⟨Nat.le_succ_of_le (Nat.le_of_eq (hidle.ran_live _ _)), fun s next hon => ?_,
      fun x hx => (hend x hx).1⟩
    obtain ⟨rep, hrep⟩ := (hend _ hon).2
    cases hrep
  | some n =>
    have hidle := idle_visited sc p.step.node (p.steps + 1) hp n p.step
    have hbegun (e : Nat → Moment) := (hidle.ran_live e _).trans
      (ran_running sc.session p.step.node p.moments p.world)
    rw [live_lift]
    exact ⟨Nat.le_of_eq (hbegun _), fun _ _ _ => hbegun _, hidle.live _ _⟩

/-- Each node that routes on takes one from the budget and is one more that ran. -/
theorem spec_of_reaches (h : Relation.ReflTransGen sc.LeadsOn p q) (hp : p.session.halt = none) :
    sc.rest p = sc.rest q ∧ q.session.halt = none ∧ q.budget + q.steps = p.budget + p.steps ∧
      q.world.ran + q.budget = p.world.ran + p.budget := by
  induction h with
  | refl => exact ⟨rfl, hp, rfl, rfl⟩
  | @tail q r _ hon ih =>
    obtain ⟨hrest, hq, hbudget, hran⟩ := ih
    obtain ⟨next, hout, hpb, hps⟩ := hon.outcome_eq
    obtain ⟨-, hbegun, haccounts⟩ := outcome_spec sc hq
    rw [hout] at hbegun haccounts
    have hbegun : r.world.ran = q.world.ran + 1 := hbegun _ _ rfl
    exact ⟨hrest.trans hon.rest_eq, haccounts _ rfl, by omega, by omega⟩

/-- Where a turn is over with its next node, it has begun one more at most, and it has not halted
because of its budget. -/
theorem Rests.spec (h : sc.Rests p out) (hp : p.session.halt = none) :
    out.2.1.ran ≤ p.world.ran + 1 ∧
      ∀ rep, out.2.2 = .ok rep → rep.steps = p.steps + 1 ∧ ¬ rep.OutOfBudget := by
  obtain ⟨hran, -, haccounts⟩ := outcome_spec sc hp
  rw [h.2] at hran haccounts
  refine ⟨hran, fun rep hrep => haccounts (.done rep) ?_⟩
  rw [hrep]
  rfl

/-- A halt that is not cut is kept. -/
theorem stop_on (s : Session) (h : Halt) (steps : Nat) (w : World) :
    (sc.stop s h steps).run.Given (fun _ => True) (fun o w => ∀ rep, o = .ok rep →
      rep.ending ≠ .aborted → rep.ending = .halted ∧ w.Keeps rep.session) w := by
  unfold stop
  refine given_lift (given_of_all fun diagnosis w => given_tried ((commit_on _ _).imp ?_))
  rintro (f | _ | s') w hkept
  · exact fun _ hrep => nomatch hrep
  · rintro rep ⟨⟩ hcut
    exact absurd rfl hcut
  · obtain ⟨-, hw⟩ := hkept s' rfl
    refine given_aside (lasting_keeps _) (gives_emit _ _ _) hw fun _ w hw => ?_
    rintro rep ⟨⟩ -
    exact ⟨rfl, hw⟩

/-- What comes of a turn that has used up its budget. -/
theorem rest_exhausted (sc : Scene) (hb : p.budget = 0) :
    (sc.rest p).2.1.ran = p.world.ran ∧ ∀ rep, (sc.rest p).2.2 = .ok rep →
      rep.steps = p.steps ∧ rep.session.halt =
        some ⟨p.step.node, .stepBudget, budgetText sc.settings.engine.maxSteps, false⟩ ∧
      (rep.ending ≠ .aborted → rep.ending = .halted ∧ (sc.rest p).2.1.Keeps rep.session) := by
  unfold rest
  rw [hb]
  have hidle := idle_stop sc p.session
    ⟨p.step.node, .stepBudget, budgetText sc.settings.engine.maxSteps, false⟩ p.steps
  refine ⟨hidle.ran_live _ _, fun rep hrep => ?_⟩
  obtain ⟨hsteps, hhalt⟩ := hidle.live p.moments p.world rep hrep
  exact ⟨hsteps, hhalt, (stop_on _ _ _ _).live (fun _ => trivial) rep hrep⟩

/-- Behind a node that routes on the store does not fail, so the turn reports even if its budget is
used up. -/
theorem exists_report (h : sc.LeadsOn p q) (hb : q.budget = 0) :
    ∃ rep, (sc.rest q).2.2 = .ok rep := by
  obtain ⟨next, hout, -⟩ := h.outcome_eq
  have hgoes : (sc.advance p.session p.step (p.steps + 1)).run.Given (fun _ => True)
      (GoesOn p.session p.step.node) p.world := advance_on (p.steps + 1)
  have hkept := hgoes.live (e := p.moments) fun _ => trivial
  rw [show World.live _ _ _ = _ from hout] at hkept
  have hshows := (hkept q.session next rfl).1.shows
  have hstop := (exhausted_given sc q.step q.steps hshows).live (e := q.moments) fun _ => trivial
  unfold rest
  rw [hb]
  generalize (q.world.live q.moments (sc.walk 0 q.steps q.session q.step).run) = ended at hstop ⊢
  obtain ⟨e, w, f | rep⟩ := ended
  · exact hstop.elim
  · exact ⟨rep, rfl⟩

/-- A budget is used up in one way only. -/
theorem exhausted_unique {q' : Stage} (h : Relation.ReflTransGen sc.LeadsOn p q)
    (h' : Relation.ReflTransGen sc.LeadsOn p q') (hb : q.budget = 0) (hb' : q'.budget = 0) :
    q = q' := by
  have hend {r r' : Stage} (hr : r.budget = 0) : ¬ sc.LeadsOn r r' := by
    intro hon
    obtain ⟨-, -, hpos, -⟩ := hon.outcome_eq
    omega
  have hone : Relator.RightUnique sc.LeadsOn := fun _ _ _ => LeadsOn.unique
  rcases Relation.ReflTransGen.total_of_right_unique hone h h' with hgoes | hgoes
  · rcases hgoes.cases_head with rfl | ⟨_, hon, -⟩
    · rfl
    · exact absurd hon (hend hb)
  · rcases hgoes.cases_head with rfl | ⟨_, hon, -⟩
    · rfl
    · exact absurd hon (hend hb')

end

section
variable {sc : Scene} {s : Session} {st : Step} {e : Nat → Moment} {w : World} {n : Nat}
  {last : Stage}

/-- A turn whose last stage has used up the budget. -/
theorem turn_exhausted
    (hlast : Relation.ReflTransGen sc.LeadsOn (sc.outset e w s st) last) (hb : last.budget = 0) :
    (w.live e (sc.turn s st).run).2.1.ran = w.ran + sc.settings.engine.maxSteps ∧
      ∀ rep, (w.live e (sc.turn s st).run).2.2 = .ok rep →
        rep.steps = sc.settings.engine.maxSteps ∧ rep.session.halt =
          some ⟨last.step.node, .stepBudget, budgetText sc.settings.engine.maxSteps, false⟩ ∧
        (rep.ending ≠ .aborted → rep.ending = .halted ∧
          (w.live e (sc.turn s st).run).2.1.Keeps rep.session) := by
  obtain ⟨hrest, -, hbudget, hran⟩ := spec_of_reaches hlast rfl
  obtain ⟨hran', hrep⟩ := rest_exhausted sc hb
  have hbudget : last.budget + last.steps = sc.settings.engine.maxSteps + 0 := hbudget
  have hran : last.world.ran + last.budget = w.ran + sc.settings.engine.maxSteps := hran
  rw [← rest_outset, hrest]
  refine ⟨by omega, fun rep h => ?_⟩
  obtain ⟨hsteps, hhalt, hkept⟩ := hrep rep h
  exact ⟨by omega, hhalt, hkept⟩

/-- A turn that is over with a node. -/
theorem turn_rests {out : (Nat → Moment) × World × Outcome Report}
    (hlast : Relation.ReflTransGen sc.LeadsOn (sc.outset e w s st) last) (h : sc.Rests last out) :
    w.live e (sc.turn s st).run = out ∧ out.2.1.ran ≤ w.ran + sc.settings.engine.maxSteps ∧
      ∀ rep, out.2.2 = .ok rep →
        rep.steps ≤ sc.settings.engine.maxSteps ∧ ¬ rep.OutOfBudget := by
  obtain ⟨hrest, hhalt, hbudget, hran⟩ := spec_of_reaches hlast rfl
  obtain ⟨hran', hrep⟩ := h.spec hhalt
  have hpos := h.1
  have hbudget : last.budget + last.steps = sc.settings.engine.maxSteps + 0 := hbudget
  have hran : last.world.ran + last.budget = w.ran + sc.settings.engine.maxSteps := hran
  refine ⟨hrest.trans h.rest_eq, by omega, fun rep hok => ?_⟩
  obtain ⟨hsteps, hkind⟩ := hrep rep hok
  exact ⟨by omega, hkind⟩

end

/-- **The budget of a turn.** A turn comes to its end after finitely many questions, and no more
nodes run than its budget. It halts because of the budget just if as many nodes as that ran and each
of them routed on; then it reports as many, and the halt names the node that would have been next
and is not to be retried; it is kept unless the turn is cut. A turn that does not halt because of
its budget does the same and comes to the same with every larger one. -/
theorem turn_budget (sc : Scene) (s : Session) (st : Step) (e : Nat → Moment) (w : World)
    {n : Nat} (hn : 1 ≤ n) :
    let out := w.live e ((sc.allowing n).turn s st).run
    let start := (sc.allowing n).outset e w s st
    (∃ asked, out.1 = fun i => e (asked + i)) ∧
      out.2.1.ran ≤ w.ran + n ∧
      (∀ rep, out.2.2 = .ok rep → rep.steps ≤ n ∧ (rep.OutOfBudget ↔
        ∃ last, Relation.ReflTransGen (sc.allowing n).LeadsOn start last ∧ last.steps = n)) ∧
      (∀ rep last, out.2.2 = .ok rep → Relation.ReflTransGen (sc.allowing n).LeadsOn start last →
        last.steps = n → out.2.1.ran = w.ran + n ∧ rep.steps = n ∧
          rep.session.halt = some ⟨last.step.node, .stepBudget, budgetText n, false⟩ ∧
          (rep.ending ≠ .aborted → rep.ending = .halted ∧ out.2.1.Keeps rep.session)) ∧
      ((∀ rep, out.2.2 = .ok rep → ¬ rep.OutOfBudget) →
        ∀ m, n ≤ m → w.live e ((sc.allowing m).turn s st).run = out) := by
  intro out start
  have hused {last : Stage} (h : Relation.ReflTransGen (sc.allowing n).LeadsOn start last) :
      last.steps = n ↔ last.budget = 0 := by
    have hbudget := (spec_of_reaches h rfl).2.2.1
    have hbudget : last.budget + last.steps = n + 0 := hbudget
    omega
  refine ⟨live_moments _ _ _, ?_⟩
  obtain ⟨last, hlast, hb | ⟨out', hrests⟩⟩ := exists_last (sc.allowing n) start
  · obtain ⟨hran, hrep⟩ := turn_exhausted hlast hb
    have hsteps := (hused hlast).2 hb
    refine ⟨Nat.le_of_eq hran, fun rep hok => ?_, fun rep last' hok hlast' hn' => ?_,
      fun hin => ?_⟩
    · obtain ⟨hn', hhalt, -⟩ := hrep rep hok
      exact ⟨Nat.le_of_eq hn', fun _ => ⟨last, hlast, hsteps⟩, fun _ => ⟨_, hhalt, rfl⟩⟩
    · obtain rfl := exhausted_unique hlast hlast' hb ((hused hlast').1 hn')
      exact ⟨hran, hrep rep hok⟩
    · -- the budget is used up behind a node, so there is a report that says so
      rcases hlast.cases_tail with heq | ⟨p, -, hon⟩
      · rw [heq] at hsteps
        exact absurd hsteps (Nat.ne_of_lt hn)
      · obtain ⟨rep, hok⟩ := exists_report hon hb
        have hok : out.2.2 = .ok rep :=
          (congrArg (·.2.2) (spec_of_reaches hlast rfl).1).trans hok
        obtain ⟨-, hhalt, -⟩ := hrep rep hok
        exact absurd ⟨_, hhalt, rfl⟩ (hin rep hok)
  · obtain ⟨hout, hran, hrep⟩ := turn_rests hlast hrests
    have hnone {last' : Stage}
        (h : Relation.ReflTransGen (sc.allowing n).LeadsOn start last') : last'.steps ≠ n :=
      fun hn' => Nat.ne_of_gt (hrests.budget_pos hlast h) ((hused h).1 hn')
    rw [show out = out' from hout]
    refine ⟨hran, fun rep hok => ?_, fun rep last' _ h hn' => absurd hn' (hnone h),
      fun _ m hm => ?_⟩
    · obtain ⟨hsteps, hkind⟩ := hrep rep hok
      exact ⟨hsteps, fun h => absurd h hkind, fun ⟨last', h, hn'⟩ => absurd hn' (hnone h)⟩
    · obtain ⟨more, rfl⟩ := Nat.exists_eq_add_of_le hm
      have hlast' : Relation.ReflTransGen (sc.allowing (n + more)).LeadsOn (start.spare more)
          (last.spare more) :=
        hlast.lift (Stage.spare · more) fun _ _ h => LeadsOn.spare h more (n + more)
      exact (turn_rests hlast' (hrests.spare more (n + more))).1

/-! ### A message that follows itself -/

/-- A message that leads back to itself. -/
def circle : Flow :=
  ⟨"f1", 1, [⟨"start", .start, .null, .start none⟩,
    ⟨"m", .message, .obj [("text", .str "again")], .message "again"⟩],
    [⟨"e1", "start", "m", .plain⟩, ⟨"e2", "m", "m", .plain⟩], [], [], "start"⟩

/-- A session of that flow. -/
def circling : Session := .new "s1" "f1" 1 0

/-- The session is stored. -/
def circlingWorld : World :=
  ((World.new .empty 0).answer ⟨false, .unreachable⟩ (.createSession circling)).1

/-- Three nodes run, and the message would have been next. -/
theorem turn_budget_circle : 1 ≤ 3 ∧ ∃ rep last,
    (circlingWorld.live calmly
      ((allowing ⟨"s1", circle, .default⟩ 3).turn circling (.run "start")).run).2.2 = .ok rep ∧
    Relation.ReflTransGen (allowing ⟨"s1", circle, .default⟩ 3).LeadsOn
      ((allowing ⟨"s1", circle, .default⟩ 3).outset calmly circlingWorld circling (.run "start"))
      last ∧
    last.steps = 3 ∧ rep.steps = 3 ∧
    rep.session.halt = some ⟨"m", .stepBudget, budgetText 3, false⟩ := by
  obtain ⟨-, -, hiff, hlast, -⟩ := turn_budget ⟨"s1", circle, .default⟩ circling (.run "start")
    calmly circlingWorld (n := 3) (by decide)
  obtain ⟨rep, hok, hhalt⟩ : ∃ rep, (circlingWorld.live calmly
      ((allowing ⟨"s1", circle, .default⟩ 3).turn circling (.run "start")).run).2.2 = .ok rep ∧
      rep.session.halt = some ⟨"m", .stepBudget, budgetText 3, false⟩ := ⟨_, rfl, rfl⟩
  obtain ⟨last, hreach, hsteps⟩ := (hiff rep hok).2.1 ⟨_, hhalt, rfl⟩
  exact ⟨by decide, rep, last, hok, hreach, hsteps, (hlast rep last hok hreach hsteps).2.1, hhalt⟩

end Scene

end Turn

end Dialogue
