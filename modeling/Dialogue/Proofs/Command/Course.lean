import Dialogue.Proofs.Command.Plan

/-! # The course of a command

Whatever others do beside a command and wherever it is cut, it keeps only sessions that `Writes`
admits, a report comes about as `Ends` says and a failure as `Fails` says.

* `handle_always`: the rule for all commands, from one rule for each of them. -/

namespace Dialogue

open Program Procedure World Turn

/-- The chat backend was told this and nothing else, provided that others tell it nothing. -/
def World.Told (beside : World → World → Prop) (D : List Delivery) (w : World) : Prop :=
  (∀ w w', beside w w' → w'.deliveries = w.deliveries) → w.deliveries = D

theorem World.stable_told (beside : World → World → Prop) (remembers : String → Flow → Prop)
    (D : List Delivery) : Stable beside remembers (Told beside D) where
  others hb h hk := (hk _ _ hb).trans (h hk)
  quiet w c ha h hk := (alike_answer ha w c).deliveries.trans (h hk)
  remembered _ h hk := h hk

theorem World.deliveries_change (w : World) (r : Outcome Store) :
    (w.change r).1.deliveries = w.deliveries := by
  cases r <;> rfl

/-- The registry answers what is in the library, and keeps all that others keep. -/
structure Library.Serves (L : Library) (beside : World → World → Prop)
    (remembers : String → Flow → Prop) (B : World → Prop) : Prop where
  version : ∀ {I : World → Prop}, Stable beside remembers I → (∀ w, I w → B w) →
    ∀ {sid : String} {writes : SessionRow → Session → Prop} (flow : String) (v : Nat) {w : World},
      I w → (Registry.version flow v).run.Always beside (Ask.Allowed sid writes remembers)
        (fun o w => L.version flow v o ∧ I w) w
  live : ∀ {I : World → Prop}, Stable beside remembers I → (∀ w, I w → B w) →
    ∀ {sid : String} {writes : SessionRow → Session → Prop} (flow : String) {w : World},
      I w → (Registry.published flow).run.Always beside (Ask.Allowed sid writes remembers)
        (fun o w => L.live flow o ∧ I w) w

namespace Command

/-- What comes of a command: a report or a failure, with the row that it leaves. -/
def Came (settings : Settings) (L : Library) (beside : World → World → Prop) (B : World → Prop)
    (sid : String) (c : Command) (r₀ : SessionRow) (D : List Delivery) :
    Outcome Report → World → Prop :=
  Either (fun rep w => ∃ r, Ends settings L sid c r₀ rep r ∧ Holds B sid r w)
    fun f w => ∃ r told, Fails settings L sid c r₀ f r told ∧ Holds B sid r w ∧
      Told beside (D ++ told) w

variable {settings : Settings} {L : Library} {beside : World → World → Prop}
  {remembers : String → Flow → Prop} {B : World → Prop} {sid : String} {c : Command}
  {r₀ r : SessionRow} {D : List Delivery} {w : World} {s : Session}

/-- The session of a row has its identity. -/
theorem Opens.id_eq (hs : Opens r₀ s) (hw : Holds B sid r₀ w) : s.id = sid :=
  (SessionRow.toSession_eq_ok hs.1).1.trans (Store.id_of_row? hw.2)

theorem Opens.status (hs : Opens r₀ s) : r₀.status? = .ok s.status :=
  (SessionRow.toSession_eq_ok hs.1).2.2.2.1

theorem Opens.status_name (hs : Opens r₀ s) : s.status.name = r₀.status :=
  (SessionRow.status_of_status? hs.status).symm

theorem status_of_not_queued (hc : s.isClosed = false) (hq : isQueued s = false) :
    s.status = .bot := by
  cases hs : s.status <;> simp_all [Session.isClosed, isQueued]

/-- What the customer says is recorded in the session as it is stored. -/
theorem Plans.session_of_said {text : String} (h : Plans settings L s c p)
    (ht : p.said = some text) : p.session = s := by
  cases h with
  | reply | retry | click => rfl
  | start | recover | giveBack => nomatch ht

/-- A plan keeps the identity of the session. -/
theorem Plans.id_eq {p : Plan} (h : Plans settings L s c p) : p.session.id = s.id := by
  cases h <;> rfl

section
variable (hB : Ground beside remembers sid B)
include hB

/-- Keeping the own session tells the chat backend nothing. -/
theorem save_always {writes : SessionRow → Session → Prop} {y : Session} (hy : y.id = sid)
    (hr : writes r y) (hw : Holds B sid r w) (hD : Told beside D w) :
    (saveSession y).run.Always beside (Ask.Allowed sid writes remembers)
      (Either (fun _ w => Holds B sid (.ofSession y) w ∧ Told beside D w) fun _ _ => False) w := by
  refine always_question fun w₁ hb => ?_
  have hw₁ := (hB.stable_holds r).others hb hw
  refine ⟨⟨hy, r, hw₁.2, hr⟩, fun c => ?_⟩
  obtain ⟨hok, hkept⟩ := hB.holds_save hw₁ hy c
  rw [hok]
  exact ⟨hkept, fun hk => (deliveries_change _ _).trans ((hk _ _ hb).trans (hD hk))⟩

theorem deliver_always {writes : SessionRow → Session → Prop} (d : Delivery)
    (hw : Holds B sid r w) (hD : Told beside D w) :
    (deliver d).Always beside (Ask.Allowed sid writes remembers)
      (fun _ w => Holds B sid r w ∧ Told beside (D ++ [d]) w) w := by
  refine always_question fun w₁ hb => ⟨trivial, fun c => ?_⟩
  have hw₁ := (hB.stable_holds r).others hb hw
  refine ⟨hB.holds_deliver hw₁ d c, fun hk => ?_⟩
  exact congrArg (· ++ [d]) ((hk _ _ hb).trans (hD hk))

/-- What the customer said is recorded in the session and told to the chat backend. -/
theorem record_always {writes : SessionRow → Session → Prop} (hs : s.id = sid) (text : String)
    (hwrites : ∀ id now, writes r (recorded s text id now)) (hw : Holds B sid r w)
    (hD : Told beside D w) :
    (record sid s text).run.Always beside (Ask.Allowed sid writes remembers)
      (Either (fun s' w => ∃ id now, s' = recorded s text id now ∧ Holds B sid (.ofSession s') w ∧
        Told beside (D ++ [.append s.id ⟨id, .user, text, none, now⟩]) w) fun _ _ => False) w := by
  subst hs
  have hI := (hB.stable_holds r).and (stable_told beside remembers D)
  unfold record
  refine always_aside hI (gives_question (.fresh .message) trivial) ⟨hw, hD⟩ fun id w _ hw => ?_
  refine always_aside hI gives_now hw fun now w _ hw => ?_
  have hsave := save_always hB (y := recorded s text id now) rfl (hwrites id now) hw.1 hw.2
  refine always_tried (hsave.imp_post ?_)
  rintro (f | u) w h
  · exact h.elim
  · refine always_lift ((deliver_always hB _ h.1 h.2).imp_post fun _ w h => ?_)
    exact ⟨id, now, rfl, h⟩

/-- A planned turn takes its course. -/
theorem plan_always {s' : Session} {p : Plan} {told : List Delivery} (hs : Opens r₀ s)
    (hp : Plans settings L s c p) (hb : p.Begins r₀ s' r told) (hid : s.id = sid)
    (hw : Holds B sid r w) (hD : Told beside (D ++ told) w) :
    (turn settings sid s' p.flow p.step).run.Always beside
      (Ask.Allowed sid (Writes settings L sid c r₀) remembers)
      (Came settings L beside B sid c r₀ D) w := by
  have hI := (hB.stable_holds r).and (stable_told beside remembers (D ++ told))
  obtain ⟨x, h₀⟩ : ∃ x, r.status? = .ok x := by
    cases hb with
    | silent _ => exact ⟨_, hs.status⟩
    | said _ id now => exact ⟨_, SessionRow.status?_ofSession _⟩
  have hid' : Session.id { s' with flowVersion := p.flow.version } = sid := by
    cases hb with
    | silent _ => exact hp.id_eq.trans hid
    | said _ id now => exact hp.id_eq.trans hid
  unfold turn
  refine always_aside hI (gives_question .openTurn trivial) ⟨hw, hD⟩ fun _ w _ hw => ?_
  let sc : Scene := ⟨sid, p.flow, settings⟩
  have hturn : (sc.turn { s' with flowVersion := p.flow.version } p.step).run.Always beside
      (Ask.Allowed sid _ remembers) _ w := Scene.turn_always hB hid' h₀ hI hw.1 hw
  refine always_lift ((hturn.imp (fun _ _ ha => ha.imp (fun r y ht => ?_) fun _ _ => id) ?_))
  · exact .turn hs hp hb ht
  rintro (f | rep) w h
  · obtain ⟨hf, hw, node, reply, n, hst, hn, ha⟩ := h
    refine always_aside hI (gives_question .closeTurn trivial) hw fun _ w _ hw => ?_
    exact ⟨r, told, .misfit hs hp hb hst hn ha hf, hw⟩
  · obtain ⟨stand, r', hc, hw, he⟩ := h
    refine always_aside (hB.stable_holds r') (gives_question .closeTurn trivial) hw
      fun _ w _ hw => ?_
    exact ⟨r', .turn hs hp hb hc he, hw⟩

/-- A planned turn takes its course once it is recorded what the customer said. -/
theorem said_always {text node : String} {f : Flow} {st : Turn.Step} (hs : Opens r₀ s)
    (hp : Plans settings L s c ⟨some text, s, f, st⟩) (hid : s.id = sid) (hw : Holds B sid r₀ w)
    (hD : Told beside D w) :
    (do
      let s ← record sid s text
      emitSession sid node .resumed
      turn settings sid s f st : Procedure Report).run.Always beside
      (Ask.Allowed sid (Writes settings L sid c r₀) remembers)
      (Came settings L beside B sid c r₀ D) w := by
  have hwrites (id : String) (now : Millis) :
      Writes settings L sid c r₀ r₀ (recorded s text id now) := .record hs hp rfl id now
  refine always_tried ((record_always hB hid text hwrites hw hD).imp_post ?_)
  rintro (f | s') w h
  · exact h.elim
  · obtain ⟨id, now, rfl, hw, hD⟩ := h
    have hI := (hB.stable_holds (.ofSession (recorded s text id now))).and
      (stable_told beside remembers (D ++ [.append s.id ⟨id, .user, text, none, now⟩]))
    refine always_aside hI (gives_emit _ _ _) ⟨hw, hD⟩ fun _ w _ hw => ?_
    exact plan_always hB hs hp (.said rfl id now) hid hw.1 hw.2

end

/-- A failure before anything was kept. -/
theorem came_error {f : Failure} (h : Fails settings L sid c r₀ f r₀ []) (hw : Holds B sid r₀ w)
    (hD : Told beside D w) : Came settings L beside B sid c r₀ D (.error f) w :=
  ⟨r₀, [], h, hw, by rwa [List.append_nil]⟩

/-- A look-up of a flow, before the rest of a command. -/
theorem lookup_always {p : Procedure Flow} {f : Flow → Procedure Report} {A : Outcome Flow → Prop}
    (hp : p.run.Always beside (Ask.Allowed sid (Writes settings L sid c r₀) remembers)
      (fun o w => A o ∧ Holds B sid r₀ w ∧ Told beside D w) w)
    (he : ∀ e, A (.error e) → Fails settings L sid c r₀ e r₀ [])
    (hf : ∀ g w, A (.ok g) → Holds B sid r₀ w → Told beside D w →
      (f g).run.Always beside (Ask.Allowed sid (Writes settings L sid c r₀) remembers)
        (Came settings L beside B sid c r₀ D) w) :
    (p >>= f).run.Always beside (Ask.Allowed sid (Writes settings L sid c r₀) remembers)
      (Came settings L beside B sid c r₀ D) w := by
  refine always_tried (hp.imp_post ?_)
  rintro (e | g) w ⟨ho, hw, hD⟩
  · exact came_error (he e ho) hw hD
  · exact hf g w ho hw hD

section
variable (hB : Ground beside remembers sid B) (hL : L.Serves beside remembers B)

include hL in
/-- The flow on which a session goes on is one that the library answers for it. -/
theorem resumeFlow_always {I : World → Prop} (hI : Stable beside remembers I)
    (hIB : ∀ w, I w → B w) {writes : SessionRow → Session → Prop} (node : String) (hw : I w) :
    (resumeFlow settings s node).run.Always beside (Ask.Allowed sid writes remembers)
      (fun o w => L.Resumes settings.engine.binding s node o ∧ I w) w := by
  unfold resumeFlow
  split
  · rename_i hb
    exact (hL.version hI hIB _ _ hw).imp_post fun o w h => ⟨.pinned hb h.1, h.2⟩
  · rename_i hb
    refine always_tried ((hL.live hI hIB _ hw).imp_post ?_)
    rintro (e | g) w ⟨ho, hw⟩
    · exact ⟨.lost hb ho, hw⟩
    dsimp only [Either]
    split
    · rename_i hn
      exact ⟨.live hb ho hn, hw⟩
    · rename_i hn
      have hn := Bool.eq_false_iff.mpr hn
      exact (hL.version hI hIB _ _ hw).imp_post fun o w h => ⟨.older hb ho hn h.1, h.2⟩

include hB

/-! ### One rule for each command -/

theorem close_always (hs : Opens r₀ s) (hid : s.id = sid) (hw : Holds B sid r₀ w) :
    (closeSession sid s).run.Always beside
      (Ask.Allowed sid (Writes settings L sid .close r₀) remembers)
      (Came settings L beside B sid .close r₀ D) w := by
  unfold closeSession
  refine always_aside (hB.stable_holds r₀) gives_now hw fun now w _ hw => ?_
  have hd := Direct.close (s := s) now
  refine always_tried ((always_save hB (y := { s with
    status := .closed, currentNode := none, pendingNode := none, updateTime := now })
    hid (.direct hs hd) hw).imp_post ?_)
  rintro (f | u) w hw
  · exact hw.elim
  refine always_lift ((always_deliver hB _ hw).imp_post fun _ w hw => ?_)
  refine always_aside (hB.stable_holds _) (gives_emit _ _ _) hw fun _ w _ hw => ?_
  exact ⟨_, .direct hs hd, hw⟩

theorem assign_always {agent : String} (hs : Opens r₀ s) (hid : s.id = sid)
    (hw : Holds B sid r₀ w) (hD : Told beside D w) :
    (assignAgent sid s agent).run.Always beside
      (Ask.Allowed sid (Writes settings L sid (.assign agent) r₀) remembers)
      (Came settings L beside B sid (.assign agent) r₀ D) w := by
  unfold assignAgent
  cases hq : isQueued s with
  | false => exact came_error (.refused hs.1 (.assign hq)) hw hD
  | true =>
    refine always_aside (hB.stable_holds r₀) gives_now hw fun now w _ hw => ?_
    have hd : Direct s (.assign agent) _ _ := .assign hq now
    let y : Session := { s with status := .open, agentId := some agent, updateTime := now }
    refine always_tried ((always_save hB (y := y) hid (.direct hs hd) hw).imp_post ?_)
    rintro (f | u) w hw
    · exact hw.elim
    · exact ⟨_, .direct hs hd, hw⟩

include hL

theorem start_always (hs : Opens r₀ s) (hid : s.id = sid) (hw : Holds B sid r₀ w)
    (hD : Told beside D w) :
    (startSession settings sid s).run.Always beside
      (Ask.Allowed sid (Writes settings L sid .start r₀) remembers)
      (Came settings L beside B sid .start r₀ D) w := by
  have hI := (hB.stable_holds r₀).and (stable_told beside remembers D)
  refine lookup_always (hL.version hI (fun _ h => h.1.1) _ _ ⟨hw, hD⟩)
    (fun e he => .lacking hs (.start he)) fun f w hf hw hD => ?_
  refine always_aside hI (gives_emit _ _ _) ⟨hw, hD⟩ fun _ w _ hw => ?_
  have hp : Plans settings L s .start ⟨none, s, f, .run f.start⟩ := .start hf
  exact plan_always hB hs hp (.silent rfl) hid hw.1 (by rw [List.append_nil]; exact hw.2)

theorem text_always {t : String} (hs : Opens r₀ s) (hid : s.id = sid) (hw : Holds B sid r₀ w)
    (hD : Told beside D w) :
    (submitText settings sid s t).run.Always beside
      (Ask.Allowed sid (Writes settings L sid (.text t) r₀) remembers)
      (Came settings L beside B sid (.text t) r₀ D) w := by
  have hI := (hB.stable_holds r₀).and (stable_told beside remembers D)
  unfold submitText
  cases hq : isQueued s with
  | true =>
    have hwrites (id : String) (now : Millis) :
        Writes settings L sid (.text t) r₀ r₀ (recorded s t id now) := .direct hs (.relay hq id now)
    refine always_tried ((record_always hB hid t hwrites hw hD).imp_post ?_)
    rintro (f | s') w h
    · exact h.elim
    · obtain ⟨id, now, rfl, hw, -⟩ := h
      exact ⟨_, .direct hs (.relay hq id now), hw⟩
  | false =>
    cases hn : s.currentNode with
    | some node =>
      refine lookup_always (resumeFlow_always hL hI (fun _ h => h.1.1) node ⟨hw, hD⟩)
        (fun e he => .lacking hs (.reply hq hn he)) fun f w hf hw hD => ?_
      have hp : Plans settings L s (.text t) ⟨some t, s, f, .resume node (.text t)⟩ :=
        .reply hq hn hf
      exact said_always hB hs hp hid hw hD
    | none =>
      cases hh : s.halt with
      | none =>
        exact came_error (.refused hs.1 (.text hq hn (by rw [hh]; nofun))) hw hD
      | some h =>
        show Always _ _ _ (ExceptT.run (if h.retryable = true then _ else _)) w
        split
        · rename_i hr
          refine lookup_always (resumeFlow_always hL hI (fun _ h => h.1.1) h.nodeId ⟨hw, hD⟩)
            (fun e he => .lacking hs (.retry hq hn hh hr he)) fun f w hf hw hD => ?_
          have hp : Plans settings L s (.text t) ⟨some t, s, f, .run h.nodeId⟩ :=
            .retry hq hn hh hr hf
          exact said_always hB hs hp hid hw hD
        · rename_i hr
          refine came_error (.refused hs.1 (.text hq hn fun h' hh' => ?_)) hw hD
          rw [hh] at hh'
          cases hh'
          exact Bool.eq_false_iff.mpr hr

theorem click_always {id label : String} (hs : Opens r₀ s) (hid : s.id = sid)
    (hw : Holds B sid r₀ w) (hD : Told beside D w) :
    (submitClick settings sid s id label).run.Always beside
      (Ask.Allowed sid (Writes settings L sid (.click id label) r₀) remembers)
      (Came settings L beside B sid (.click id label) r₀ D) w := by
  have hI := (hB.stable_holds r₀).and (stable_told beside remembers D)
  unfold submitClick
  cases hp : s.isPaused with
  | false =>
    have hnone : (s.currentNode.filter fun _ => false) = none := by cases s.currentNode <;> rfl
    rw [hnone]
    exact came_error (.refused hs.1 (.click hp)) hw hD
  | true =>
    obtain ⟨node, hn⟩ : ∃ node, s.currentNode = some node := by
      have := hp
      simp only [Session.isPaused, Bool.and_eq_true] at this
      exact Option.isSome_iff_exists.mp this.2
    rw [show (s.currentNode.filter fun _ => true) = some node by rw [hn]; rfl]
    refine lookup_always (resumeFlow_always hL hI (fun _ h => h.1.1) node ⟨hw, hD⟩)
      (fun e he => .lacking hs (.click hp hn he)) fun f w hf hw hD => ?_
    dsimp only
    split
    · rename_i ha
      exact came_error (.refused hs.1 (.noButtons hp hn hf ha)) hw hD
    · rename_i ha
      obtain ⟨n, hnode, hk⟩ : ∃ n, f.node? node = some n ∧ n.kind = .template := by
        cases hnode : f.node? node with
        | none => rw [hnode] at ha; exact absurd rfl ha
        | some n => rw [hnode] at ha; exact ⟨n, rfl, by simpa using ha⟩
      have hplan : Plans settings L s (.click id label)
          ⟨some label, s, f, .resume node (.click id label)⟩ := .click hp hn hf hnode hk
      exact said_always hB hs hplan hid hw hD

theorem recover_always (hs : Opens r₀ s) (hid : s.id = sid) (hw : Holds B sid r₀ w)
    (hD : Told beside D w) :
    (recoverSession settings sid s).run.Always beside
      (Ask.Allowed sid (Writes settings L sid .recover r₀) remembers)
      (Came settings L beside B sid .recover r₀ D) w := by
  have hI := (hB.stable_holds r₀).and (stable_told beside remembers D)
  unfold recoverSession
  cases hn : s.pendingNode with
  | none => exact came_error (.refused hs.1 (.recover hn)) hw hD
  | some node =>
    refine lookup_always (hL.version hI (fun _ h => h.1.1) _ _ ⟨hw, hD⟩)
      (fun e he => .lacking hs (.recover hn he)) fun f w hf hw hD => ?_
    have hp : Plans settings L s .recover ⟨none, s, f, .run node⟩ := .recover hn hf
    exact plan_always hB hs hp (.silent rfl) hid hw (by rwa [List.append_nil])

theorem giveBack_always {node : Option String} (hs : Opens r₀ s) (hid : s.id = sid)
    (hw : Holds B sid r₀ w) (hD : Told beside D w) :
    (returnToFlow settings sid s node).run.Always beside
      (Ask.Allowed sid (Writes settings L sid (.giveBack node) r₀) remembers)
      (Came settings L beside B sid (.giveBack node) r₀ D) w := by
  have hI := (hB.stable_holds r₀).and (stable_told beside remembers D)
  unfold returnToFlow
  cases hq : isQueued s with
  | false => exact came_error (.refused hs.1 (.giveBack hq)) hw hD
  | true =>
    refine lookup_always (hL.live hI (fun _ h => h.1.1) _ ⟨hw, hD⟩)
      (fun e he => .lacking hs (.giveBack hq he)) fun f w hf hw hD => ?_
    dsimp only
    split
    · rename_i ha
      exact came_error (.refused hs.1 (.noNode hq hf ha)) hw hD
    · rename_i ha
      have ha : (f.node? (node.getD f.start)).isSome = true := by
        rwa [Option.isNone_iff_eq_none, ← Ne, Option.ne_none_iff_isSome] at ha
      refine always_aside hI (gives_emit _ _ _) ⟨hw, hD⟩ fun _ w _ hw => ?_
      have hp : Plans settings L s (.giveBack node)
          ⟨none, givenBack s, f, .run (node.getD f.start)⟩ := .giveBack hq hf ha
      exact plan_always hB hs hp (.silent rfl) hid hw.1 (by rw [List.append_nil]; exact hw.2)

/-- **A command** keeps only what `Writes` admits, and comes to what `Ends` or `Fails` says. -/
theorem handle_always (c : Command) (hw : Holds B sid r₀ w) (hD : Told beside D w) :
    (handle settings sid c).run.Always beside
      (Ask.Allowed sid (Writes settings L sid c r₀) remembers)
      (Came settings L beside B sid c r₀ D) w := by
  have hI := (hB.stable_holds r₀).and (stable_told beside remembers D)
  refine always_tried (p := loadSession sid) fun w₁ hb => ⟨trivial, fun circ => ?_⟩
  have hw₁ := hI.others hb ⟨hw, hD⟩
  show Either _ _ (w₁.store.loadSession sid) w₁
  rw [Store.loadSession_eq (hB.registered hw₁.1.1) hw₁.1.2]
  cases hload : r₀.toSession with
  | error f => exact came_error (.unreadable hload) hw₁.1 hw₁.2
  | ok s =>
  cases hc : s.isClosed with
  | true =>
    show Always _ _ _ (ExceptT.run (if s.isClosed = true then _ else _)) _
    rw [if_pos hc]
    exact came_error (.refused hload (.closed hc)) hw₁.1 hw₁.2
  | false =>
    show Always _ _ _ (ExceptT.run (if s.isClosed = true then _ else _)) _
    rw [if_neg (by rw [hc]; nofun)]
    have hs : Opens r₀ s := ⟨hload, hc⟩
    have hid : s.id = sid := hs.id_eq hw₁.1
    cases c with
    | start => exact start_always hB hL hs hid hw₁.1 hw₁.2
    | text t => exact text_always hB hL hs hid hw₁.1 hw₁.2
    | click id label => exact click_always hB hL hs hid hw₁.1 hw₁.2
    | close => exact close_always hB hs hid hw₁.1
    | recover => exact recover_always hB hL hs hid hw₁.1 hw₁.2
    | assign agent => exact assign_always hB hs hid hw₁.1 hw₁.2
    | giveBack node => exact giveBack_always hB hL hs hid hw₁.1 hw₁.2

end

end Command

end Dialogue
