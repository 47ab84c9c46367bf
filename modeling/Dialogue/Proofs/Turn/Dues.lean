import Dialogue.Proofs.Session.Settles
import Dialogue.Proofs.Turn.Growth

/-! # A turn pays what it owes

A turn keeps the session behind each node and for a halt. It tells what was said and what the node
changed before it does anything else, and a transfer or an end before it is over. So whenever it
goes on to another node nothing is owed.

* `stop_settles`, `follow_settles`, `conclude_settles`, `advance_settles`: the parts of a turn.
* `walk_settles`: the whole turn, by induction on the budget. -/

namespace Dialogue.Turn

open Program Procedure

/-- The turn has the session in hand as it was last read or kept, apart from pointers, and owes
nothing. -/
structure Holding (sid : String) (s : Session) (t : Account) : Prop where
  id : s.id = sid
  status : s.status = .bot
  halt : s.halt = none
  messages : s.messages = t.known.messages
  vars : s.vars = t.known.vars
  alive : t.known.status ≠ .closed
  turning : t.turning = true
  paid : t.owed = []

/-- What is told behind a node once its route is taken. -/
def Route.parting : Route → List Notice
  | .handoff queue _ => [.transfer (some queue)]
  | .close => [.close]
  | .go _ | .finish | .pause | .halt _ _ _ => []

/-- The turn goes on with the session in hand, or it is over and nothing is owed. -/
def Onward (sid : String) : Progress → Account → Prop
  | .on s _, t => Holding sid s t
  | .done _, t => t.owed = []

variable {sid : String} {s y : Session} {t : Account} {spoken : List Message}

/-! ### Sessions behind a node -/

theorem status_after (s : Session) (node : String) (vars : Variables) (spoken : List Message)
    (r : Route) (h : s.status = .bot) (hr : r.parting = []) :
    (after s node vars spoken r).status = .bot := by
  cases r with
  | handoff queue reason => cases hr
  | close => cases hr
  | _ => exact h

/-! ### Commits of a turn -/

namespace Holding

theorem fits (h : Holding sid s t) (hid : y.id = s.id) (hm : y.messages = s.messages ++ spoken)
    (htimely : ∀ m ∈ spoken, FitsColumn m.timestamp) (hgrows : s.vars.Grows y.vars)
    (hhalt : y.halt.isNone = false → y.vars = s.vars) : (t.commit y).Fits sid where
  id := hid.trans h.id
  alive := h.alive
  said := ⟨spoken, hm.trans (congrArg (· ++ spoken) h.messages), htimely⟩
  grows := show t.known.vars.Grows y.vars from h.vars ▸ hgrows
  vars hnode := by
    refine (hhalt ?_).trans h.vars
    rwa [show (t.commit y).byNode = (t.turning && y.halt.isNone) from rfl, h.turning,
      Bool.true_and] at hnode
  queued hturning := by
    rw [show (t.commit y).turning = true from h.turning] at hturning
    cases hturning

theorem spoken_eq (h : Holding sid s t) (hm : y.messages = s.messages ++ spoken) :
    (t.commit y).spoken = spoken :=
  Commit.spoken_eq (hm.trans (congrArg (· ++ spoken) h.messages))

theorem delta_eq (h : Holding sid s t) (y : Session) :
    (t.commit y).delta = if y.halt.isNone then Variables.delta s.vars y.vars else [] := by
  rw [Commit.delta, show (t.commit y).byNode = (t.turning && y.halt.isNone) from rfl, h.turning,
    Bool.true_and, h.vars]
  rfl

theorem parting_of_bot (t : Account) (hy : y.status = .bot) : (t.commit y).parting = [] := by
  simp [Commit.parting, Commit.transfers, Commit.closes, Account.commit, hy]

theorem parting_after (h : Holding sid s t) (node : String) (vars : Variables)
    (spoken : List Message) (r : Route) (now : Millis) :
    (t.commit (stamped (after s node vars spoken r) now)).parting = r.parting := by
  have hs := h.status
  have ht := h.turning
  cases r <;>
    simp [Commit.parting, Commit.transfers, Commit.closes, Account.commit, Route.parting, stamped,
      after, hs, ht]

end Holding

/-! ### Turns -/

namespace Scene

variable {sc : Scene}

theorem message_settles (u : Utterance) :
    (botMessage u).Settles sid (fun m t' => t' = t ∧ FitsColumn m.timestamp) t :=
  fun _ _ _ => ⟨fun _ hm => (by cases hm), fun _ _ hw =>
    ⟨fun _ hm => (by cases hm), rfl, hw.clock⟩⟩

theorem messages_settles (us : List Utterance) :
    (us.mapM botMessage).Settles sid
      (fun ms t' => t' = t ∧ ∀ m ∈ ms, FitsColumn m.timestamp) t := by
  induction us with
  | nil => exact ⟨rfl, nofun⟩
  | cons u rest ih =>
    rw [List.mapM_cons]
    refine settles_bind ((message_settles u).imp fun m t' ⟨ht, hm⟩ => ?_)
    subst ht
    refine settles_bind (ih.imp fun ms t' ⟨ht, hms⟩ => ⟨ht, ?_⟩)
    intro m' hm'
    rcases List.mem_cons.mp hm' with rfl | hm'
    · exact hm
    · exact hms m' hm'

/-- Nothing is owed behind a halt. -/
theorem stop_settles (h : Holding sid s t) (x : Halt) (steps : Nat) :
    (sc.stop s x steps).run.Settles sid (Leaves fun _ t => t.owed = []) t := by
  unfold stop
  refine settles_lift ((message_settles _).imp fun diagnosis t' ⟨ht, hd⟩ => ?_)
  subst ht
  have htimely : ∀ m ∈ [diagnosis], FitsColumn m.timestamp := fun m hm => by
    rwa [List.mem_singleton.mp hm]
  refine settles_tried ((settles_commit (s := haltedBy s x diagnosis) h.paid
    (fun _ => h.fits rfl rfl htimely (.refl _) fun _ => rfl) (fun _ => h.spoken_eq rfl)
    (fun _ => h.delta_eq _)).imp ?_)
  rintro (e | kept) t hkept
  · exact hkept
  cases kept with
  | none => exact hkept ▸ h.paid
  | some y =>
    obtain ⟨now, rfl, rfl⟩ := hkept
    exact settles_aside (passes_emit _ _ _) fun _ _ => Holding.parting_of_bot t' h.status

theorem follow_settles {node : String} {r : Route} (hid : s.id = sid) (howed : t.owed = r.parting)
    (h : r.parting = [] → Holding sid s t) (steps : Nat) :
    (sc.follow s node r steps).run.Settles sid (Leaves (Onward sid)) t := by
  have hemit := fun e => passes_emit sc.session node (.session e)
  cases r with
  | go next => exact h rfl
  | finish => exact settles_aside (hemit _) fun _ _ => howed
  | pause => exact settles_aside (hemit _) fun _ _ => howed
  | handoff queue reason =>
    refine settles_lift (settles_deliver hid howed ?_)
    exact settles_aside (hemit _) fun _ _ => rfl
  | close =>
    refine settles_lift (settles_deliver hid howed ?_)
    exact settles_aside (hemit _) fun _ _ => rfl
  | halt kind text again =>
    refine settles_tried ((stop_settles (h rfl) _ _).imp ?_)
    rintro (e | rep) t ht
    · exact ht
    · exact ht

/-- A node that finished tells what it said and changed. -/
theorem conclude_settles (h : Holding sid s t) {node : String} {o : Output}
    (ho : s.vars.Grows o.vars) (steps : Nat) :
    (sc.conclude s node o steps).run.Settles sid (Leaves (Onward sid)) t := by
  unfold conclude
  refine settles_lift ((messages_settles _).imp fun spoken t' ⟨ht, hspoken⟩ => ?_)
  subst ht
  dsimp only
  generalize hr : o.transition.route sc.flow node = r
  have hid : (after s node o.vars spoken r).id = s.id := id_after _ _ _ _ _
  have hm : (after s node o.vars spoken r).messages = s.messages ++ spoken := messages_after ..
  have hhalt : (after s node o.vars spoken r).halt = none := (halt_after ..).trans h.halt
  have hvars : (after s node o.vars spoken r).vars = o.vars := vars_after ..
  have hgrows : s.vars.Grows (after s node o.vars spoken r).vars := by
    rw [hvars]
    exact ho
  have hfits (now : Millis) :
      (t'.commit (stamped (after s node o.vars spoken r) now)).Fits sid :=
    h.fits hid hm hspoken hgrows fun hsome => by
      rw [show (stamped (after s node o.vars spoken r) now).halt = none from hhalt] at hsome
      cases hsome
  have hdelta (now : Millis) : (t'.commit (stamped (after s node o.vars spoken r) now)).delta =
      Variables.delta s.vars o.vars := by
    rw [h.delta_eq, show (stamped (after s node o.vars spoken r) now).halt = none from hhalt,
      show (stamped (after s node o.vars spoken r) now).vars = o.vars from hvars]
    rfl
  refine settles_tried ((settles_commit h.paid hfits (fun now => h.spoken_eq hm) hdelta).imp ?_)
  rintro (e | kept) t hkept
  · exact hkept
  cases kept with
  | none => exact settles_aside (passes_emitNode _ _ _) fun _ _ => hkept ▸ h.paid
  | some y =>
    obtain ⟨now, rfl, rfl⟩ := hkept
    refine settles_aside (passes_emitNode _ _ _) fun _ _ => ?_
    refine follow_settles (hfits now).id (h.parting_after node o.vars spoken r now) ?_ steps
    intro hparting
    have hbot := status_after s node o.vars spoken r h.status hparting
    exact ⟨(hfits now).id, hbot, hhalt, rfl, rfl, fun hclosed => (nomatch hbot.symm.trans hclosed),
      h.turning, (h.parting_after node o.vars spoken r now).trans hparting⟩

theorem advance_settles (h : Holding sid s t) (st : Step) (steps : Nat) :
    (sc.advance s st steps).run.Settles sid (Leaves (Onward sid)) t := by
  have hstop (x : Halt) : ((sc.stop s x steps) >>= fun rep => pure (Progress.done rep)).run.Settles
      sid (Leaves (Onward sid)) t := by
    refine settles_tried ((stop_settles h x steps).imp ?_)
    rintro (e | rep) t ht
    · exact ht
    · exact ht
  unfold advance
  dsimp only
  cases hn : sc.flow.node? st.node with
  | none => exact hstop _
  | some n =>
    refine settles_aside (passes_emitNode _ _ _) fun _ _ => ?_
    refine settles_aside (passes_visit n st) fun v hv => ?_
    cases v with
    | cut => exact settles_aside (passes_emitNode _ _ _) fun _ _ => h.paid
    | failed f =>
      dsimp only
      split
      · exact h.paid
      · exact settles_aside (passes_emit _ _ _) fun _ _ => hstop _
    | finished o => exact conclude_settles h hv steps

/-- **A turn** pays all it owes before it is over. -/
theorem walk_settles (h : Holding sid s t) (budget steps : Nat) (st : Step) :
    (sc.walk budget steps s st).run.Settles sid (Leaves fun _ t => t.owed = []) t := by
  induction budget generalizing steps s st t with
  | zero => exact stop_settles h _ _
  | succ budget ih =>
    rw [walk_succ]
    refine settles_tried ((advance_settles h st (steps + 1)).imp ?_)
    rintro (e | p) t hp
    · exact hp
    cases p with
    | on s next => exact ih hp _ _
    | done rep => exact hp

end Scene

end Dialogue.Turn
