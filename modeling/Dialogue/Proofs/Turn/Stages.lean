import Dialogue.Proofs.Turn.Outcome
import Mathlib.Logic.Relation

/-! # The stages of a turn

A turn goes from stage to stage: at each of them one node is next. It goes on to the next stage
where that node routes on, and what comes of the turn is what comes of it at any of its stages.
Between two stages the session in hand is the one in the store.

* `LeadsOn.rest_eq`: the rest of a turn is what comes of it at any of its stages.
* `LeadsOn.unique`: a turn goes on in one way only.
* `stage_facts`: what is in hand and in the store wherever a turn has come. -/

namespace Dialogue.Turn

open Program Procedure World

/-- How far a turn has come: what it has in hand, and the world and the moments that are ahead. -/
structure Stage where
  moments : Nat → Moment
  budget : Nat
  steps : Nat
  session : Session
  step : Step
  world : World

namespace Scene

/-- The beginning of a turn. -/
def outset (sc : Scene) (e : Nat → Moment) (w : World) (s : Session) (st : Step) : Stage :=
  ⟨e, sc.settings.engine.maxSteps, 0, begun s, st, w⟩

/-- What comes of a turn from a stage on. -/
def rest (sc : Scene) (p : Stage) : (Nat → Moment) × World × Outcome Report :=
  p.world.live p.moments (sc.walk p.budget p.steps p.session p.step).run

/-- The node of a stage was run and its changes were kept, and the turn goes on at the next one. -/
inductive LeadsOn (sc : Scene) : Stage → Stage → Prop
  | on {e e' : Nat → Moment} {budget steps : Nat} {s s' : Session} {st : Step} {next : String}
      {w w' : World}
      (h : w.live e (sc.advance s st (steps + 1)).run = (e', w', .ok (.on s' next))) :
      LeadsOn sc ⟨e, budget + 1, steps, s, st, w⟩ ⟨e', budget, steps + 1, s', .run next, w'⟩

variable {sc : Scene} {e : Nat → Moment} {w : World} {s s₀ : Session} {st : Step} {p q : Stage}

theorem rest_outset : sc.rest (sc.outset e w s st) = w.live e (sc.turn s st).run := rfl

theorem LeadsOn.rest_eq (h : sc.LeadsOn p q) : sc.rest p = sc.rest q := by
  cases h with
  | on h =>
    unfold rest
    dsimp only
    rw [walk_succ, live_tried, h]

/-- A turn goes on in one way only. -/
theorem LeadsOn.unique {q' : Stage} (h : sc.LeadsOn p q) (h' : sc.LeadsOn p q') : q = q' := by
  cases h with
  | on h =>
    cases h' with
    | on h' =>
      cases h.symm.trans h'
      rfl

/-- The budget and the number of steps make up the budget of the turn. -/
theorem LeadsOn.budget_eq (h : sc.LeadsOn p q) : q.budget + q.steps = p.budget + p.steps := by
  cases h with
  | @on e e' budget steps => exact Nat.add_left_comm budget steps 1 |>.trans (Nat.add_comm _ _)

theorem budget_le (h : Relation.ReflTransGen sc.LeadsOn p q) : q.budget ≤ p.budget := by
  induction h with
  | refl => exact Nat.le_refl _
  | tail _ h ih =>
    cases h with
    | on _ => exact Nat.le_trans (Nat.le_succ _) ih

/-- The session in hand, under way since the turn began with another one. -/
structure Underway (s₀ : Session) (p : Stage) : Prop where
  id : p.session.id = s₀.id
  flowId : p.session.flowId = s₀.flowId
  flowVersion : p.session.flowVersion = s₀.flowVersion
  status : p.session.status = s₀.status
  currentNode : p.session.currentNode = none
  halt : p.session.halt = none

/-- The stored row and the next node of a stage. -/
structure Stored (p : Stage) : Prop where
  kept : p.world.Keeps p.session
  pending : ∃ node, p.session.pendingNode = some node ∧ p.step = .run node

theorem underway_outset : Underway s (sc.outset e w s st) := ⟨rfl, rfl, rfl, rfl, rfl, rfl⟩

/-- What is in hand and in the store where a turn goes on. -/
theorem LeadsOn.underway (h : sc.LeadsOn p q) (hp : Underway s₀ p) :
    Underway s₀ q ∧ Stored q := by
  cases h with
  | @on e e' budget steps s s' st next w w' h =>
    have hgoes : (sc.advance s st (steps + 1)).run.Given (fun _ => True) (GoesOn s st.node) w :=
      advance_on (steps + 1)
    have hon := hgoes.live (e := e) fun _ => trivial
    rw [h] at hon
    obtain ⟨hkept, vars, spoken, now, rfl⟩ := hon s' next rfl
    exact ⟨⟨hp.id, hp.flowId, hp.flowVersion, hp.status, hp.currentNode, hp.halt⟩, hkept, next, rfl,
      rfl⟩

/-- **Stages.** Wherever a turn has come its rest is the same, the session that it has in hand is in
the store, and the next node is pending. -/
theorem stage_facts (hp : Underway s₀ p) (h : Relation.TransGen sc.LeadsOn p q) :
    sc.rest p = sc.rest q ∧ q.budget + q.steps = p.budget + p.steps ∧ Underway s₀ q ∧ Stored q := by
  induction h with
  | single h => exact ⟨h.rest_eq, h.budget_eq, h.underway hp⟩
  | tail _ h ih =>
    obtain ⟨hrest, hbudget, hunder, hstored⟩ := ih
    exact ⟨hrest.trans h.rest_eq, h.budget_eq.trans hbudget, h.underway hunder⟩

/-- Without a budget a walk is cut or halts for that. -/
theorem exhausted_given (sc : Scene) (st : Step) (steps : Nat) {x : Status}
    (hw : w.Shows s.id x) :
    (sc.walk 0 steps s st).run.Given (fun _ => True)
      (Either (fun rep _ => rep.ending = .aborted ∨
        ∃ h, rep.session.halt = some h ∧ h.kind = .stepBudget) fun _ _ => False) w := by
  obtain ⟨r, hw, hr⟩ := hw.exists_hasRow
  refine (stop_given (K := True) (fun _ _ _ => trivial) hr (fun _ => trivial)
    ⟨st.node, .stepBudget, budgetText sc.settings.engine.maxSteps, false⟩ steps hw).imp ?_
  rintro (f | rep) w hrep
  · exact hrep
  · exact hrep.imp (·.1) fun hhalt => ⟨_, hhalt.2.1.halt_eq, rfl⟩

end Scene

end Dialogue.Turn
