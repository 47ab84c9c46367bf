import Dialogue.Proofs.Program.Trail
import Dialogue.Proofs.Turn.Revises
import Dialogue.Proofs.Turn.Writes

/-! # What a turn asks of sessions

A turn reads and keeps its own session only, tells the chat backend of no other one, and looks no
version up, whatever is answered.

* `asks_commit`, `asks_stop`, `asks_conclude`, `asks_advance`: the parts of a turn.
* `asks_walk`, `asks_turn`: the whole turn, by induction on the budget. -/

namespace Dialogue

open Program Procedure

/-- The question concerns no session but one, and no version of a flow. -/
def Ask.Private (sid : String) : Ask → Prop
  | .loadSession id | .sessionStatus id => id = sid
  | .saveSession y => y.id = sid
  | .deliver d => d.session = sid
  | .loadFlow _ | .loadSchedule _ | .now | .fresh .message | .emit _ | .openTurn | .closeTurn
  | .isAborted | .wait _ | .exchange _ => True
  | _ => False

theorem Ask.Visiting.private {a : Ask} (h : a.Visiting) (sid : String) : a.Private sid := by
  cases a with
  | loadSchedule | now | emit | isAborted | wait | exchange => exact trivial
  | _ => exact h.elim

namespace Program

variable {α β : Type} {ok : Ask → Prop} {P : α → Prop}

theorem asks_forM {γ : Type} {f : γ → Program Unit} (h : ∀ c, (f c).Asks ok fun _ => True)
    (l : List γ) : (l.forM f).Asks ok fun _ => True := by
  induction l with
  | nil => exact trivial
  | cons c rest ih => exact asks_bind ((h c).imp fun _ _ => ih)

end Program

namespace Turn

variable {sid : String} {s : Session}

theorem asks_botMessage (u : Utterance) :
    (botMessage u).Asks (Ask.Private sid) fun _ => True :=
  ⟨trivial, fun _ => ⟨trivial, fun _ => trivial⟩⟩

theorem asks_botMessages (us : List Utterance) :
    (us.mapM botMessage).Asks (Ask.Private sid) fun _ => True := by
  induction us with
  | nil => exact trivial
  | cons u rest ih =>
    rw [List.mapM_cons]
    exact asks_bind ((asks_botMessage u).imp fun _ _ => asks_bind (ih.imp fun _ _ => trivial))

/-- The session is kept under its identity. -/
theorem asks_commit (hs : s.id = sid) (spoken : List Message) (delta : Variables) :
    (commit s spoken delta).run.Asks (Ask.Private sid)
      fun o => ∀ k, o = .ok k → ∀ y, k = some y → y.id = sid := by
  unfold commit
  have hnone : ∀ k, (.ok none : Outcome (Option Session)) = .ok k →
      ∀ y, k = some y → y.id = sid := by
    rintro _ h _ rfl
    cases h
  refine asks_lift (p := isAborted) ⟨trivial, fun aborted => ?_⟩
  show Asks _ _ (ExceptT.run (if aborted = true then _ else _))
  split
  · exact hnone
  refine asks_then (p := sessionStatus s.id) ⟨hs, fun o x _ => ?_⟩
  split
  · exact hnone
  refine asks_lift (p := now) ⟨trivial, fun t => ?_⟩
  refine asks_then (p := saveSession _) ⟨hs, fun o u _ => ?_⟩
  have hdone :
      ∀ k, (.ok (some { s with updateTime := t.millis }) : Outcome (Option Session)) = .ok k →
        ∀ y, k = some y → y.id = sid := by
    rintro _ h _ rfl
    cases h
    exact hs
  have happend (m : Message) : (deliver (.append s.id m)).Asks (Ask.Private sid) fun _ => True :=
    ⟨hs, fun _ => trivial⟩
  refine asks_lift ((asks_forM happend spoken).imp fun _ _ => ?_)
  split
  · exact hdone
  · exact asks_lift (p := deliver _) ⟨hs, fun _ => hdone⟩

/-- The session with which a turn goes on has that identity. -/
def Progress.OnId (sid : String) : Progress → Prop
  | .on s _ => s.id = sid
  | .done _ => True

namespace Scene

variable {sc : Scene}

theorem asks_emitSession {α : Type} {P : Outcome α → Prop} {node : String} {e : SessionEvent}
    {f : Unit → Procedure α} (h : (f ()).run.Asks (Ask.Private sid) P) :
    ((emitSession sc.session node e : Procedure Unit) >>= f).run.Asks (Ask.Private sid) P :=
  asks_lift (p := emitSession sc.session node e) ⟨trivial, fun _ => h⟩

theorem asks_emitNode {α : Type} {P : Outcome α → Prop} {node : String} {e : Millis → NodeEvent}
    {f : Unit → Procedure α} (h : (f ()).run.Asks (Ask.Private sid) P) :
    ((emitNode sc.session node e : Procedure Unit) >>= f).run.Asks (Ask.Private sid) P :=
  asks_lift (p := emitNode sc.session node e) ⟨trivial, fun _ => ⟨trivial, fun _ => h⟩⟩

theorem asks_stop (hs : s.id = sid) (h : Halt) (steps : Nat) :
    (sc.stop s h steps).run.Asks (Ask.Private sid) fun _ => True := by
  unfold stop
  refine asks_lift ((asks_botMessage _).imp fun m _ => ?_)
  refine asks_tried (fun _ => trivial)
    ((asks_commit (s := haltedBy s h m) hs [m] []).imp fun o _ k _ => ?_)
  cases k with
  | none => exact trivial
  | some y => exact asks_emitSession trivial

theorem asks_halt (hs : s.id = sid) (h : Halt) (steps : Nat) :
    (do return .done (← sc.stop s h steps) : Procedure Progress).run.Asks (Ask.Private sid)
      fun o => ∀ pr, o = .ok pr → pr.OnId sid := by
  refine asks_then ((asks_stop hs h steps).imp fun _ _ rep _ => ?_)
  rintro _ h
  cases h
  exact trivial

theorem asks_over (rep : Report) : (pure (.done rep) : Procedure Progress).run.Asks
    (Ask.Private sid) fun o => ∀ pr, o = .ok pr → pr.OnId sid := by
  rintro _ h
  cases h
  exact trivial

theorem asks_follow (hs : s.id = sid) (node : String) (r : Route) (steps : Nat) :
    (sc.follow s node r steps).run.Asks (Ask.Private sid)
      fun o => ∀ pr, o = .ok pr → pr.OnId sid := by
  cases r with
  | go next =>
    rintro _ h
    cases h
    exact hs
  | finish | pause => exact asks_emitSession (asks_over _)
  | handoff | close =>
    exact asks_lift (p := deliver _) ⟨hs, fun _ => asks_emitSession (asks_over _)⟩
  | halt kind text retryable => exact asks_halt hs _ steps

theorem asks_conclude (hs : s.id = sid) (node : String) (o : Output) (steps : Nat) :
    (sc.conclude s node o steps).run.Asks (Ask.Private sid)
      fun o => ∀ pr, o = .ok pr → pr.OnId sid := by
  unfold conclude
  refine asks_lift ((asks_botMessages _).imp fun spoken _ => ?_)
  have hafter := (id_after (s := s) node o.vars spoken (o.transition.route sc.flow node)).trans hs
  refine asks_then ((asks_commit hafter spoken _).imp fun _ hk k hok => ?_)
  cases k with
  | none => exact asks_emitNode (asks_over _)
  | some y => exact asks_emitNode (asks_follow (hk _ hok y rfl) node _ steps)

theorem asks_advance (hs : s.id = sid) (st : Step) (steps : Nat) :
    (sc.advance s st steps).run.Asks (Ask.Private sid)
      fun o => ∀ pr, o = .ok pr → pr.OnId sid := by
  unfold advance
  dsimp only
  cases sc.flow.node? st.node with
  | none => exact asks_halt hs _ steps
  | some n =>
    have hvisit : (sc.visit n st s.vars).Asks (Ask.Private sid) fun _ => True :=
      ((asks_visit n st).mono fun _ h => h.private sid).imp fun _ _ => trivial
    refine asks_emitNode ?_
    refine asks_lift (p := sc.visit n st s.vars) (hvisit.imp ?_)
    rintro (_ | f | o) -
    · exact asks_emitNode (asks_over _)
    · dsimp only
      split
      · rintro _ h
        cases h
      · exact asks_lift (p := emit _ _ _) ⟨trivial, fun _ => asks_halt hs _ steps⟩
    · exact asks_conclude hs st.node o steps

theorem asks_walk (hs : s.id = sid) (budget steps : Nat) (st : Step) :
    (sc.walk budget steps s st).run.Asks (Ask.Private sid) fun _ => True := by
  induction budget generalizing s steps st with
  | zero => exact asks_stop hs _ steps
  | succ budget ih =>
    rw [walk_succ]
    refine asks_tried (fun _ => trivial)
      ((asks_advance hs st (steps + 1)).imp fun _ hon pr hok => ?_)
    cases pr with
    | on y next => exact ih (hon _ hok) (steps + 1) (.run next)
    | done rep => exact trivial

/-- **A turn** asks of sessions only its own, and looks no version up. -/
theorem asks_turn (hs : s.id = sid) (st : Step) :
    (sc.turn s st).run.Asks (Ask.Private sid) fun _ => True :=
  asks_walk (s := begun s) hs _ 0 st

end Scene

end Turn

end Dialogue
