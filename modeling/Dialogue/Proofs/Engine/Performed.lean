import Dialogue.Command
import Dialogue.Engine.World
import Dialogue.Proofs.Store.Flows

/-! # What is done alone

What a program does without interruption is what its parts do one after the other. So a call of the
registry that is made alone is told by the rows that it writes, whatever graphs these hold.

* `perform_lift`, `perform_tried`: programs behind each other.
* `perform_createFlow`, `perform_saveDraft`, `perform_publish`, `perform_openSession`: the calls. -/

namespace Dialogue.World

open Program Registry

variable {α β : Type} {w : World} {peer : Http.Attempt} {flow : String} {d d' : Definition}
  {g : Graph} {f : Flow}

/-! ### Programs behind each other -/

/-- Where all circumstances are alike, the number of a question makes no difference. -/
theorem run_calm (peer : Http.Attempt) (n : Nat) (p : Program α) (w : World) :
    (run (calm peer) n p w).2 = w.perform peer p := by
  suffices ∀ m, (run (calm peer) n p w).2 = (run (calm peer) m p w).2 from this 0
  intro m
  induction p generalizing n m w with
  | done a => rfl
  | ask a next ih => exact ih _ _ _ _

theorem perform_bind (p : Program β) (q : β → Program α) :
    w.perform peer (p.bind q) = (w.perform peer p).1.perform peer (q (w.perform peer p).2) := by
  unfold perform
  rw [run_bind]
  exact run_calm peer _ _ _

theorem perform_lift (p : Program β) (q : β → Procedure α) :
    w.perform peer ((p : Procedure β) >>= q).run =
      (w.perform peer p).1.perform peer (q (w.perform peer p).2).run := by
  show w.perform peer (ExceptT.lift p >>= q).run = _
  rw [ExceptT.run_bind_lift]
  exact perform_bind p _

/-- A program behind one that does not fail. -/
theorem perform_tried {p : Procedure β} (q : β → Procedure α) {w' : World} {b : β}
    (h : w.perform peer p.run = (w', .ok b)) :
    w.perform peer (p >>= q).run = w'.perform peer (q b).run := by
  rw [ExceptT.run_bind]
  show w.perform peer (p.run.bind _) = _
  rw [perform_bind, h]

/-- What becomes of the world by something that is done without interruption. -/
def doing (w : World) (p : Program α) : World := (w.perform .unreachable p).1

/-! ### Calls of the registry -/

/-- The world with a flow that is kept. -/
def withFlow (w : World) (d : Definition) : World :=
  { w with store := { w.store with flows := w.store.flows.put (.ofDefinition d) } }

/-- The world with another version of a flow. -/
def withVersion (w : World) (d : Definition) : World :=
  { w with store := { w.store with versions := { w.store.versions with
    rows := w.store.versions.rows ++ [.ofGraph d.id d.version d.draft w.clock] } } }

/-- The world with a new session. -/
def withSession (w : World) (s : Session) : World :=
  { w with store := { w.store with sessions := { w.store.sessions with
    rows := w.store.sessions.rows ++ [.ofSession s] } } }

/-- The world with a flow whose draft is live. -/
def offering (w : World) (d : Definition) (f : Flow) : World :=
  { (w.withVersion d).withFlow d with compiled := w.compiled.set (VersionRow.key f.id f.version) f }

/-- The flow is loaded as its row is read. -/
theorem loadFlow_withFlow (hs : w.store.registered = true) (hd : d.ReadsAs d')
    (hv : d'.version < 0x8000000000000000) : (w.withFlow d).store.loadFlow d.id = .ok d' := by
  have hrow : (w.withFlow d).store.flows.row? d.id = some (.ofDefinition d) :=
    (Collection.row?_put _ _ _).trans (if_pos rfl)
  have hload := Store.loadFlow_eq (s := (w.withFlow d).store) hs hrow
  rw [hload, FlowRow.toDefinition_of_readsAs hd, toSigned64_eq hv, ofSigned64_natCast]

theorem saveFlow_withFlow (hs : w.store.registered = true) (d : Definition) :
    w.store.saveFlow d = .ok (w.withFlow d).store := by
  rw [Store.saveFlow, Store.access, if_pos hs]
  rfl

variable (peer)

theorem perform_saveFlow (hs : w.store.registered = true) (d : Definition) :
    w.perform peer (Procedure.saveFlow d).run = (w.withFlow d, .ok ()) :=
  congrArg w.change (saveFlow_withFlow hs d)

/-- A new flow is kept under a new identity. -/
theorem perform_createFlow (hs : w.store.registered = true) (name : String) :
    let d : Definition := ⟨(w.fresh .flow).2, name, .initial, none, 0, w.clock, w.clock⟩
    w.perform peer (createFlow name).run = ((w.fresh .flow).1.withFlow d, .ok d) := by
  intro d
  have hsave : (w.fresh .flow).1.perform peer (Procedure.saveFlow d).run =
      ((w.fresh .flow).1.withFlow d, .ok ()) := perform_saveFlow (w := (w.fresh .flow).1) peer hs d
  unfold createFlow
  rw [perform_lift, perform_lift]
  exact perform_tried _ hsave

/-- The flow is kept with the draft. -/
theorem perform_saveDraft (h : w.store.loadFlow flow = .ok d)
    (hd : withDraft d g w.clock = .ok d') :
    w.perform peer (saveDraft flow g).run = (w.withFlow d', .ok d') := by
  obtain ⟨hs, -⟩ := Store.loadFlow_eq_ok h
  have hload : w.perform peer (Procedure.loadFlow flow).run = (w, .ok d) := congrArg (w, ·) h
  have hdraft : w.perform peer (ExceptT.mk (pure (withDraft d g w.clock)) : Procedure _).run =
      (w, .ok d') := congrArg (w, ·) hd
  unfold saveDraft
  rw [perform_lift]
  refine (perform_tried _ hload).trans ((perform_tried _ hdraft).trans ?_)
  exact perform_tried _ (perform_saveFlow peer hs d')

/-- The draft of the flow becomes its next version. -/
theorem perform_publish (h : w.store.loadFlow d.id = .ok d)
    (hc : Flow.compile d.id (d.version + 1) d.draft = .ok f)
    (hfree : w.store.versions.row? (VersionRow.key d.id (d.version + 1)) = none) :
    let d' := { d with
      published := some d.draft, version := d.version + 1, updateTime := w.clock }
    w.perform peer (publish d.id).run = (w.offering d' f, .ok d') := by
  intro d'
  obtain ⟨hs, -⟩ := Store.loadFlow_eq_ok h
  have hload : w.perform peer (Procedure.loadFlow d.id).run = (w, .ok d) := congrArg (w, ·) h
  have hcompile : w.perform peer (compile d.id (d.version + 1) d.draft).run = (w, .ok f) := by
    show (w, (Flow.compile d.id (d.version + 1) d.draft).mapError Flow.Defect.toFailure) = _
    rw [hc]
    rfl
  have hversion : w.perform peer
      (Procedure.saveVersion d.id (d.version + 1) d.draft w.clock).run =
      (w.withVersion d', .ok ()) := congrArg w.change (Store.saveVersion_eq hs hfree)
  unfold publish
  rw [perform_lift]
  refine (perform_tried _ hload).trans ((perform_tried _ hcompile).trans ?_)
  refine (perform_tried _ hversion).trans ?_
  have hflow : (w.withVersion d').perform peer (Procedure.saveFlow d').run =
      ((w.withVersion d').withFlow d', .ok ()) :=
    perform_saveFlow (w := w.withVersion d') peer hs d'
  refine (perform_tried _ hflow).trans ?_
  rw [perform_lift]
  rfl

/-- A new session is kept, at the version of the flow that is live. -/
theorem perform_openSession (h : w.store.loadFlow d.id = .ok d) (hv : d.version ≠ 0)
    (hc : w.compiled.get? (VersionRow.key d.id d.version) = some f)
    (hfree : w.store.row? (w.fresh .session).2 = none) :
    let id := (w.fresh .session).2
    w.perform peer (Command.openSession d.id).run =
      ((w.fresh .session).1.withSession (.new id d.id f.version w.clock), .ok id) := by
  intro id
  obtain ⟨hs, -⟩ := Store.loadFlow_eq_ok h
  have hload : w.perform peer (Procedure.loadFlow d.id).run = (w, .ok d) := congrArg (w, ·) h
  have hversion : w.perform peer (version d.id d.version).run = (w, .ok f) := by
    unfold version
    rw [perform_lift, show w.perform peer (question (.cached (VersionRow.key d.id d.version))) =
      (w, some f) from congrArg (w, ·) hc]
    rfl
  have hpublished : w.perform peer (published d.id).run = (w, .ok f) := by
    unfold published
    rw [perform_tried _ hload, if_neg hv]
    exact hversion
  have hcreate : (w.fresh .session).1.perform peer
      (Procedure.createSession (.new id d.id f.version w.clock)).run =
      ((w.fresh .session).1.withSession (.new id d.id f.version w.clock), .ok ()) :=
    congrArg (w.fresh .session).1.change (Store.createSession_eq hs hfree)
  unfold Command.openSession
  rw [perform_tried _ hpublished, perform_lift, perform_lift]
  exact perform_tried _ hcreate

end Dialogue.World
