import Dialogue.Proofs.Program.Live
import Dialogue.Proofs.Turn.Course
import Mathlib.Data.List.Forall2

/-! # What a step comes to

A step takes the route that the visit of its node decides on, unless it is cut: because the turn was
told to stop, or because the session was closed. The session that it leaves is the one of the visit,
with the messages and the halt that go with it.

* `commit_given`, `stop_given`, `follow_given`, `conclude_given`: the parts of a step.
* `advance_ensues`: the whole step, given what comes of the visit.
* `advance_given`: the route of the step only.
* `advance_on`: what is kept where the step goes on. -/

namespace Dialogue

/-- The store has a row of the session, which tells its status. -/
def World.Shows (sid : String) (x : Status) (w : World) : Prop :=
  w.store.registered = true ∧ ∃ r, w.store.row? sid = some r ∧ r.status? = .ok x

/-- The store has the session as it is. -/
def World.Keeps (s : Session) (w : World) : Prop :=
  w.store.registered = true ∧ w.store.row? s.id = some (.ofSession s)

/-- The store has that row of the session. -/
def World.HasRow (sid : String) (r : SessionRow) (w : World) : Prop :=
  w.store.registered = true ∧ w.store.row? sid = some r

/-- Quiet answers and calls of the chat backend leave the condition alone. -/
structure World.Lasting (I : World → Prop) : Prop where
  alike : ∀ {w w' : World}, w.Alike w' → I w → I w'
  told : ∀ {w : World} (d : Delivery), I w → I { w with deliveries := w.deliveries ++ [d] }

theorem World.lasting_hasRow (sid : String) (r : SessionRow) : Lasting (HasRow sid r) where
  alike h hw := ⟨h.registered.trans hw.1, (row?_eq_of_alike h sid).trans hw.2⟩
  told _ h := h

theorem World.Shows.exists_hasRow {sid : String} {x : Status} {w : World} (h : w.Shows sid x) :
    ∃ r, w.HasRow sid r ∧ r.status? = .ok x := by
  obtain ⟨hreg, r, hr, hx⟩ := h
  exact ⟨r, ⟨hreg, hr⟩, hx⟩

theorem World.lasting_keeps (s : Session) : Lasting (Keeps s) where
  alike h hw := ⟨h.registered.trans hw.1, (row?_eq_of_alike h s.id).trans hw.2⟩
  told _ h := h

theorem World.Keeps.shows {s : Session} {w : World} (h : w.Keeps s) : w.Shows s.id s.status :=
  ⟨h.1, _, h.2, SessionRow.status?_ofSession s⟩

namespace Turn

open Program Procedure World

/-- The route that a visit decides on, if it is not cut. -/
def Visit.route? (f : Flow) (node : String) : Visit → Option Route
  | .cut => none
  | .failed x => some (.halt (haltKind x) x.message true)
  | .finished o => some (o.transition.route f node)

/-- It is the time of one of the moments. -/
def TimeIn (P : Moment → Prop) (t : Millis) : Prop := ∃ m, P m ∧ m.time.millis = t

/-- The message says this, at one of the moments. -/
def Utterance.Says (P : Moment → Prop) (u : Utterance) (m : Message) : Prop :=
  ∃ id t, TimeIn P t ∧ m = ⟨id, .bot, u.text, u.buttons, t⟩

namespace Progress

/-- The session in hand. -/
def session : Progress → Session
  | .on s _ => s
  | .done rep => rep.session

/-- The turn was cut. -/
def IsCut : Progress → Prop
  | .on _ _ => False
  | .done rep => rep.ending = .aborted

/-- A node took a route. -/
def Takes (node : String) : Route → Progress → Prop
  | .go next, .on _ target => target = next
  | .finish, .done rep => rep.ending = .ended
  | .pause, .done rep => rep.ending = .paused
  | .handoff _ _, .done rep => rep.ending = .handoff
  | .close, .done rep => rep.ending = .closed
  | .halt kind text again, .done rep =>
      rep.ending = .halted ∧ rep.session.halt = some ⟨node, kind, text, again⟩
  | _, _ => False

theorem Takes.not_isCut {node : String} {r : Route} {p : Progress} (h : p.Takes node r) :
    ¬ p.IsCut := by
  intro hcut
  cases p with
  | on s target => exact hcut
  | done rep =>
    have hcut : rep.ending = .aborted := hcut
    cases r with
    | go next => exact h
    | halt kind text again => rw [h.1] at hcut; cases hcut
    | finish | pause | handoff | close =>
      rw [show rep.ending = _ from h] at hcut
      cases hcut

end Progress

namespace Scene

/-- The session has halted, and the customer was told so. -/
def Halts (sc : Scene) (P : Moment → Prop) (s : Session) (h : Halt) (y : Session) : Prop :=
  ∃ m now, Utterance.Says P ⟨sc.settings.messages.diagnosticPrefix ++ " " ++ h.message, none⟩ m ∧
    TimeIn P now ∧ y = stamped (haltedBy s h m) now

/-- What becomes of a session on a route from a node: nothing but a halt. -/
def Follows (sc : Scene) (P : Moment → Prop) (s : Session) (node : String) :
    Route → Session → Prop
  | .halt kind text again, y => sc.Halts P s ⟨node, kind, text, again⟩ y
  | _, y => y = s

/-- The session is kept as the node leaves it that gave this output. -/
def Concludes (sc : Scene) (P : Moment → Prop) (s : Session) (node : String) (o : Output)
    (y : Session) : Prop :=
  ∃ spoken now, List.Forall₂ (Utterance.Says P) o.utterances spoken ∧ TimeIn P now ∧
    y = stamped (after s node o.vars spoken (o.transition.route sc.flow node)) now

/-- The session that a visit leaves. -/
def Leaves (sc : Scene) (P : Moment → Prop) (s : Session) (node : String) (y : Session) :
    Visit → Prop
  | .cut => False
  | .failed x => sc.Halts P s ⟨node, haltKind x, x.message, true⟩ y
  | .finished o => ∃ s', sc.Concludes P s node o s' ∧
      sc.Follows P s' node (o.transition.route sc.flow node) y

/-- What ensues from a visit: the turn takes its route, and the store has the session that the visit
leaves. Or the turn is cut, and the store has the row from before or the session as the node left
it. -/
inductive Ensues (sc : Scene) (P : Moment → Prop) (K : Prop) (r : SessionRow) (s : Session)
    (node : String) (v : Visit) (p : Progress) (w : World) : Prop
  | cut (hK : K) (hp : p.IsCut)
      (hw : w.HasRow s.id r ∨ ∃ o s', v = .finished o ∧ sc.Concludes P s node o s' ∧ w.Keeps s')
  | taken {route : Route} (hroute : v.route? sc.flow node = some route) (hp : p.Takes node route)
      (hleaves : sc.Leaves P s node p.session v) (hw : w.Keeps p.session)

variable {sc : Scene} {P : Moment → Prop} {K : Prop} {sid : String} {x : Status} {s : Session}
  {r : SessionRow} {w : World} {node : String}

/-- A program of quiet questions, before another one that may fail. -/
theorem given_aside {α β : Type} {I : World → Prop} (hI : Lasting I) {p : Program β} {Q : β → Prop}
    (hp : p.Gives Q) {f : β → Procedure α} {post : Outcome α → World → Prop} (hw : I w)
    (h : ∀ b w, I w → (f b).run.Given P post w) :
    ((p : Procedure β) >>= f).run.Given P post w :=
  given_lift (hp.given.imp fun b _ hb => h b _ (hI.alike hb.2 hw))

theorem given_deliver {I : World → Prop} (hI : Lasting I) (d : Delivery) (hw : I w) :
    (deliver d).Given P (fun _ => I) w :=
  fun m _ => hI.told d (hI.alike (alike_timed w m.time) hw)

theorem given_append {I : World → Prop} (hI : Lasting I) (id : String) (spoken : List Message)
    (hw : I w) :
    (spoken.forM fun m => deliver (.append id m) : Program Unit).Given P (fun _ => I) w := by
  induction spoken generalizing w with
  | nil => exact hw
  | cons m rest ih =>
    show (deliver (.append id m) >>= fun _ => rest.forM _).Given _ _ w
    exact given_bind ((given_deliver hI _ hw).imp fun _ _ h => ih h)

theorem given_now {I : World → Prop} (hI : Lasting I) (hw : I w) :
    now.Given P (fun t w => TimeIn P t ∧ I w) w :=
  fun m hm => ⟨⟨m, hm, rfl⟩, hI.alike (alike_timed w m.time) hw⟩

/-- A message gets an identity and the time. -/
theorem given_message {I : World → Prop} (hI : Lasting I) (u : Utterance) (hw : I w) :
    (botMessage u).Given P (fun m w => u.Says P m ∧ I w) w := by
  have hid := (gives_question (.fresh .message) trivial).given (P := P) (w := w)
  unfold botMessage
  refine given_bind (hid.imp fun id w' hw' => ?_)
  refine given_bind ((given_now hI (hI.alike hw'.2 hw)).imp fun t w ht => ?_)
  exact ⟨⟨id, t, ht.1, rfl⟩, ht.2⟩

theorem given_messages {I : World → Prop} (hI : Lasting I) (us : List Utterance) (hw : I w) :
    (us.mapM botMessage).Given P (fun ms w => List.Forall₂ (Utterance.Says P) us ms ∧ I w) w := by
  induction us generalizing w with
  | nil => exact ⟨.nil, hw⟩
  | cons u rest ih =>
    rw [List.mapM_cons]
    refine given_bind ((given_message hI u hw).imp fun m w hm => ?_)
    exact given_bind ((ih hm.2).imp fun ms w hms => ⟨.cons hm.1 hms.1, hms.2⟩)

theorem hasRow_isAborted (hP : ∀ m, P m → m.circumstance.aborted = true → K)
    (hw : w.HasRow sid r) :
    isAborted.Given P (fun b w => (b = true → K) ∧ w.HasRow sid r) w :=
  fun m hm => ⟨hP m hm, (lasting_hasRow sid r).alike (alike_timed w m.time) hw⟩

theorem hasRow_status (hr : r.status? = .ok x) (hw : w.HasRow sid r) :
    (sessionStatus sid).run.Given P
      (Either (fun y w => y = x ∧ w.HasRow sid r) fun _ _ => False) w := by
  intro m _
  obtain ⟨hreg, hrow⟩ := hw
  show Either _ _ ((w.timed m.time).store.sessionStatus sid) _
  rw [timed, Store.sessionStatus_eq hreg hrow, hr]
  exact ⟨rfl, hreg, hrow⟩

theorem hasRow_save (y : Session) (hw : w.HasRow y.id r) :
    (saveSession y).run.Given P
      (Either (fun _ w => w.Keeps y) fun _ _ => False) w := by
  intro m _
  obtain ⟨hreg, hr⟩ := hw
  obtain ⟨sessions, hsave, hrow⟩ := Store.saveSession_eq hreg hr
  show Either _ _ ((w.timed m.time).change (w.store.saveSession y)).2
    ((w.timed m.time).change (w.store.saveSession y)).1
  rw [hsave]
  exact ⟨hreg, (hrow y.id).trans (if_pos rfl)⟩

section
variable (hP : ∀ m, P m → m.circumstance.aborted = true → K) (hr : r.status? = .ok x)
  (hx : x = .closed → K)
include hP hr hx

/-- The session is kept, unless the turn was told to stop or the session was closed. -/
theorem commit_given (spoken : List Message) (delta : Variables) (hw : w.HasRow s.id r) :
    (commit s spoken delta).run.Given P
      (Either (fun kept w => match kept with
        | none => K ∧ w.HasRow s.id r
        | some s' => (∃ now, TimeIn P now ∧ s' = stamped s now) ∧ w.Keeps s')
        fun _ _ => False) w := by
  unfold commit
  refine given_lift ((hasRow_isAborted hP hw).imp fun aborted w ⟨ha, hw⟩ => ?_)
  split
  · exact ⟨ha ‹_›, hw⟩
  refine given_tried ((hasRow_status hr hw).imp ?_)
  rintro (e | y) w hy
  · exact hy.elim
  obtain ⟨rfl, hw⟩ := hy
  show Given P _ (ExceptT.run (if y = .closed then _ else _)) _
  split
  · exact ⟨hx ‹_›, hw⟩
  refine given_lift ((given_now (lasting_hasRow _ _) hw).imp fun now w ⟨hnow, hw⟩ => ?_)
  refine given_tried ((hasRow_save (stamped s now) hw).imp ?_)
  rintro (e | y) w hw
  · exact hw.elim
  have hI := lasting_keeps (stamped s now)
  refine given_lift ((given_append hI _ _ hw).imp fun _ w hw => ?_)
  split
  · exact ⟨⟨now, hnow, rfl⟩, hw⟩
  · exact given_lift ((given_deliver hI _ hw).imp fun _ w hw => ⟨⟨now, hnow, rfl⟩, hw⟩)

/-- The turn ends with the halt, unless it is cut. -/
theorem stop_given (h : Halt) (steps : Nat) (hw : w.HasRow s.id r) :
    (sc.stop s h steps).run.Given P
      (Either (fun rep w => rep.ending = .aborted ∧ K ∧ w.HasRow s.id r ∨
        rep.ending = .halted ∧ sc.Halts P s h rep.session ∧ w.Keeps rep.session)
        fun _ _ => False) w := by
  unfold stop
  refine given_lift ((given_message (lasting_hasRow _ _) _ hw).imp fun diagnosis w ⟨hm, hw⟩ => ?_)
  refine given_tried ((commit_given (s := haltedBy s h diagnosis) hP hr hx _ _ hw).imp ?_)
  rintro (e | kept) w hkept
  · exact hkept.elim
  cases kept with
  | none => exact .inl ⟨rfl, hkept⟩
  | some s' =>
    obtain ⟨⟨now, hnow, rfl⟩, hw⟩ := hkept
    refine given_aside (lasting_keeps _) (gives_emit _ _ _) hw fun _ w hw => ?_
    exact .inr ⟨rfl, ⟨diagnosis, now, hm, hnow, rfl⟩, hw⟩

end

theorem Halts.halt_eq {h : Halt} {y : Session} (hy : sc.Halts P s h y) : y.halt = some h := by
  obtain ⟨m, now, -, -, rfl⟩ := hy
  rfl

/-- The turn goes where a route leads, unless it is cut before the row of a halt. -/
theorem follow_given (hP : ∀ m, P m → m.circumstance.aborted = true → K) {route : Route}
    (hx : ∀ kind text again, route = .halt kind text again → s.status = .closed → K) (steps : Nat)
    (hw : w.Keeps s) :
    (sc.follow s node route steps).run.Given P
      (Either (fun p w => p.IsCut ∧ K ∧ w.Keeps s ∨
        p.Takes node route ∧ sc.Follows P s node route p.session ∧ w.Keeps p.session)
        fun _ _ => False) w := by
  have hI := lasting_keeps s
  have hemit := fun e => gives_emit sc.session node (.session e)
  cases route with
  | go next => exact .inr ⟨rfl, rfl, hw⟩
  | finish => exact given_aside hI (hemit _) hw fun _ _ hw => .inr ⟨rfl, rfl, hw⟩
  | pause => exact given_aside hI (hemit _) hw fun _ _ hw => .inr ⟨rfl, rfl, hw⟩
  | handoff queue reason =>
    refine given_lift ((given_deliver hI _ hw).imp fun _ w hw => ?_)
    exact given_aside hI (hemit _) hw fun _ _ hw => .inr ⟨rfl, rfl, hw⟩
  | close =>
    refine given_lift ((given_deliver hI _ hw).imp fun _ w hw => ?_)
    exact given_aside hI (hemit _) hw fun _ _ hw => .inr ⟨rfl, rfl, hw⟩
  | halt kind text again =>
    have hstatus : (SessionRow.ofSession s).status? = .ok s.status := SessionRow.status?_ofSession s
    refine given_tried ((stop_given hP hstatus (hx kind text again rfl) _ _ hw).imp ?_)
    rintro (e | rep) w hrep
    · exact hrep.elim
    · exact hrep.imp_right fun ⟨hend, hhalts, hw⟩ => ⟨⟨hend, hhalts.halt_eq⟩, hhalts, hw⟩

/-- What comes of a visit that is cut only for a reason, refuses nothing, and otherwise decides on a
route of some sort. -/
def Decides (sc : Scene) (node : String) (K : Prop) (R : Route → Prop) (v : Visit) (_ : World) :
    Prop :=
  (v = .cut → K) ∧ (∀ f, v = .failed f → f.isSession = false) ∧
    ∀ r, v.route? sc.flow node = some r → R r

section
variable (hP : ∀ m, P m → m.circumstance.aborted = true → K) (hr : r.status? = .ok x)
  (hx : x = .closed → K) (hs : s.status = .closed → K)
include hP hr hx hs

/-- A node that finished takes the route of its output, unless the turn is cut. -/
theorem conclude_given (o : Output) (steps : Nat) (hw : w.HasRow s.id r) :
    (sc.conclude s node o steps).run.Given P
      (Either (fun p w => sc.Ensues P K r s node (.finished o) p w) fun _ _ => False) w := by
  unfold conclude
  refine given_lift
    ((given_messages (lasting_hasRow _ _) _ hw).imp fun spoken w ⟨hspoken, hw⟩ => ?_)
  have hid := id_after s node o.vars spoken (o.transition.route sc.flow node)
  rw [← hid] at hw
  refine given_tried ((commit_given (s := after s node o.vars spoken _) hP hr hx _ _ hw).imp ?_)
  rintro (e | kept) w hkept
  · exact hkept.elim
  cases kept with
  | none =>
    obtain ⟨hK, hw⟩ := hkept
    rw [hid] at hw
    exact given_aside (lasting_hasRow _ _) (gives_emitNode _ _ _) hw fun _ w hw =>
      .cut hK rfl (.inl hw)
  | some s' =>
    obtain ⟨⟨now, hnow, rfl⟩, hw⟩ := hkept
    have hconcludes : sc.Concludes P s node o
        (stamped (after s node o.vars spoken (o.transition.route sc.flow node)) now) :=
      ⟨spoken, now, hspoken, hnow, rfl⟩
    refine given_aside (lasting_keeps _) (gives_emitNode _ _ _) hw fun _ w hw => ?_
    refine (follow_given hP (fun kind text again hroute hclosed => ?_) steps hw).imp ?_
    · rw [hroute] at hclosed
      exact hs hclosed
    · rintro (e | p) w hp
      · exact hp.elim
      rcases hp with ⟨hcut, hK, hw⟩ | ⟨htakes, hfollows, hw⟩
      · exact .cut hK hcut (.inr ⟨o, _, rfl, hconcludes, hw⟩)
      · exact .taken rfl htakes ⟨_, hconcludes, hfollows⟩ hw

/-- **A step** comes to what ensues from its visit, if that is cut only for a reason and refuses
nothing. -/
theorem advance_ensues {n : Flow.Node} {st : Step} (steps : Nat)
    (hn : sc.flow.node? st.node = some n) {V : Visit → Prop} (hcut : V .cut → K)
    (hfailed : ∀ f, V (.failed f) → f.isSession = false) (hw : w.HasRow s.id r)
    (hv : ∀ w, (sc.visit n st s.vars).Given P (fun v _ => V v) w) :
    (sc.advance s st steps).run.Given P
      (Either (fun p w => ∃ v, V v ∧ sc.Ensues P K r s st.node v p w) fun _ _ => False) w := by
  have hI := lasting_hasRow s.id r
  unfold advance
  simp only [hn]
  refine given_aside hI (gives_emitNode _ _ _) hw fun _ w hw => ?_
  have hvisit := (hv w).and (gives_visit n st s.vars).given
  refine given_lift (hvisit.imp fun v w' ⟨hV, _, halike⟩ => ?_)
  have hw := hI.alike halike hw
  cases v with
  | cut =>
    exact given_aside hI (gives_emitNode _ _ _) hw fun _ w hw =>
      ⟨_, hV, .cut (hcut hV) rfl (.inl hw)⟩
  | failed f =>
    simp only [hfailed f hV]
    refine given_aside hI (gives_emit _ _ _) hw fun _ w hw => ?_
    refine given_tried ((stop_given hP hr hx _ _ hw).imp ?_)
    rintro (e | rep) w hrep
    · exact hrep.elim
    rcases hrep with ⟨hend, hK, hw⟩ | ⟨hend, hhalts, hw⟩
    · exact ⟨_, hV, .cut hK hend (.inl hw)⟩
    · exact ⟨_, hV, .taken rfl ⟨hend, hhalts.halt_eq⟩ hhalts hw⟩
  | finished o =>
    refine (conclude_given hP hr hx hs o steps hw).imp ?_
    rintro (e | p) w hp
    · exact hp.elim
    · exact ⟨_, hV, hp⟩

end

/-- **The route of a step** is the one of its visit, unless it is cut. -/
theorem advance_given (hP : ∀ m, P m → m.circumstance.aborted = true → K)
    (hx : x = .closed → K) (hs : s.status = .closed → K) {n : Flow.Node} {st : Step} (steps : Nat)
    (hn : sc.flow.node? st.node = some n) {R : Route → Prop} (hw : w.Shows s.id x)
    (hv : ∀ w, (sc.visit n st s.vars).Given P (sc.Decides st.node K R) w) :
    (sc.advance s st steps).run.Given P
      (Either (fun p _ => p.IsCut ∧ K ∨ ∃ r, R r ∧ p.Takes st.node r) fun _ _ => False) w := by
  obtain ⟨r, hw, hr⟩ := hw.exists_hasRow
  refine (advance_ensues hP hr hx hs steps hn (V := fun v => sc.Decides st.node K R v w)
    (fun h => h.1 rfl) (fun f h => h.2.1 f rfl) hw hv).imp ?_
  rintro (e | p) w' hp
  · exact hp.elim
  obtain ⟨v, hV, hp⟩ := hp
  cases hp with
  | cut hK hcut => exact .inl ⟨hcut, hK⟩
  | taken hroute htakes => exact .inr ⟨_, hV.2.2 _ hroute, htakes⟩

/-! ### Steps that go on -/

/-- Where a step goes on, it has kept the session as a node leaves it that leads there. -/
def GoesOn (s : Session) (node : String) (o : Outcome Progress) (w : World) : Prop :=
  ∀ s' next, o = .ok (.on s' next) → w.Keeps s' ∧
    ∃ vars spoken now, s' = stamped (after s node vars spoken (.go next)) now

/-- A turn that is over does not go on. -/
theorem goesOn_done (p : Procedure Report) :
    (p >>= fun rep => pure (Progress.done rep)).run.Given P (GoesOn s node) w := by
  refine given_tried (given_of_all fun o w => ?_)
  cases o with
  | ok rep => exact fun _ _ h => nomatch h
  | error f => exact fun _ _ h => nomatch h

/-- The same after a last question. -/
theorem goesOn_last {p : Program Unit} {rep : Report} :
    ((p : Procedure Unit) >>= fun _ => pure (Progress.done rep)).run.Given P (GoesOn s node) w :=
  given_lift (given_of_all fun _ _ _ _ h => nomatch h)

/-- Where a session is kept it is in the store, whatever was there before. -/
theorem commit_on (spoken : List Message) (delta : Variables) :
    (commit s spoken delta).run.Given P (fun o w => ∀ s', o = .ok (some s') →
      (∃ now, s' = stamped s now) ∧ w.Keeps s') w := by
  unfold commit
  refine given_lift (given_of_all fun aborted w => ?_)
  split
  · exact fun _ h => nomatch h
  refine given_tried (given_of_all fun o w => ?_)
  cases o with
  | error f => exact fun _ h => nomatch h
  | ok status =>
    show Given P _ (ExceptT.run (if status = .closed then _ else _)) _
    split
    · exact fun _ h => nomatch h
    refine given_lift (given_of_all fun now w => given_tried fun m _ => ?_)
    show Either _ _ ((w.timed m.time).change (w.store.saveSession (stamped s now))).2
      ((w.timed m.time).change (w.store.saveSession (stamped s now))).1
    cases hsave : w.store.saveSession (stamped s now) with
    | error f => exact fun _ h => nomatch h
    | ok store =>
      have hreg := Store.registered_of_saveSession hsave
      obtain ⟨sessions, rfl, hrow⟩ := Store.saveSession_eq_ok hsave
      have hkept : World.Keeps (stamped s now)
          { w.timed m.time with store := { w.store with sessions } } :=
        ⟨hreg, (hrow (stamped s now).id).trans (if_pos rfl)⟩
      have hI := lasting_keeps (stamped s now)
      refine given_lift ((given_append hI _ _ hkept).imp fun _ w hw => ?_)
      split
      · rintro s' ⟨⟩
        exact ⟨⟨now, rfl⟩, hw⟩
      · refine given_lift ((given_deliver hI _ hw).imp fun _ w hw => ?_)
        rintro s' ⟨⟩
        exact ⟨⟨now, rfl⟩, hw⟩

theorem conclude_on (o : Output) (steps : Nat) :
    (sc.conclude s node o steps).run.Given P (GoesOn s node) w := by
  unfold conclude
  refine given_lift (given_of_all fun spoken w => ?_)
  refine given_tried ((commit_on spoken (Variables.delta s.vars o.vars)).imp fun o' w hkept => ?_)
  match o' with
  | .error f => exact fun _ _ h => nomatch h
  | .ok none => exact goesOn_last
  | .ok (some s') =>
    obtain ⟨⟨now, rfl⟩, hw⟩ := hkept s' rfl
    refine given_aside (lasting_keeps _) (gives_emitNode _ _ _) hw fun _ w hw => ?_
    unfold follow
    split
    · rename_i next hroute
      rintro s' next' ⟨⟩
      rw [hroute] at hw ⊢
      exact ⟨hw, _, _, _, rfl⟩
    · exact goesOn_last
    · exact goesOn_last
    · exact given_lift (given_of_all fun _ _ => goesOn_last)
    · exact given_lift (given_of_all fun _ _ => goesOn_last)
    · exact goesOn_done _

/-- A step that goes on has kept the session, whatever was in the store before. -/
theorem advance_on {st : Step} (steps : Nat) :
    (sc.advance s st steps).run.Given P (GoesOn s st.node) w := by
  unfold advance
  dsimp only
  cases hn : sc.flow.node? st.node with
  | none => exact goesOn_done _
  | some n =>
    refine given_lift (given_of_all fun _ w => given_lift (given_of_all fun v w => ?_))
    cases v with
    | cut => exact goesOn_last
    | failed f =>
      dsimp only
      split
      · exact fun _ _ h => nomatch h
      · exact given_lift (given_of_all fun _ _ => goesOn_done _)
    | finished o => exact conclude_on o steps

end Scene

end Turn

end Dialogue
