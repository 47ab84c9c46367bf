import Dialogue.Proofs.Command.Plan
import Dialogue.Proofs.Turn.Conserves

/-! # What a command conserves

A command reads its session, may look a flow up, may keep the session, and may run a turn on the
flow. A condition on the session in hand that each of these conserves holds of every session that
the command keeps, whichever command it is.

* `record_conserves`, `turn_conserves`: what the customer says is recorded, and the turn is run.
* `submit_conserves`: the rule for all commands to a session that was read.
* `handle_conserves`: the whole of a command. -/

namespace Dialogue

open Program Procedure World Turn

namespace Command

/-- What the customer says by a command. -/
def said? : Command → Option String
  | .text t => some t
  | .click _ label => some label
  | _ => none

/-- The session closed at a time. -/
def ended (s : Session) (now : Millis) : Session :=
  { s with status := .closed, currentNode := none, pendingNode := none, updateTime := now }

/-- The session in the hands of an agent since a time. -/
def taken (s : Session) (agent : String) (now : Millis) : Session :=
  { s with status := .open, agentId := some agent, updateTime := now }

/-- What a command conserves: `L` holds of the session as it was read, `K` of every session that may
be kept before a turn, `F` of the flows that are found, and `P` of the session in a turn. -/
structure Conserves (settings : Settings) (sid : String) (c : Command)
    (beside : World → World → Prop) (guard : World → Ask → Prop) (T : Millis → Prop)
    (lets : World → Prop) (L K : Session → World → Prop) (F : String → Flow → World → Prop)
    (P : Flow → Session → World → Prop) : Prop where
  clock : ∀ {w w' : World}, beside w w' → T w.clock → T w'.clock
  letting : Lasts beside lets
  loaded : ∀ s, Lasts beside (L s)
  kept : ∀ s, Lasts beside (K s)
  found : ∀ flow f, Lasts beside (F flow f)
  /-- The questions that may be asked. -/
  load : ∀ w, guard w (.loadSession sid)
  locals : ∀ w a, a.Local → guard w a
  save : ∀ {w s}, K s w → lets w → guard w (.saveSession s)
  saveTurn : ∀ {w s f}, P f s w → lets w → guard w (.saveSession s)
  version : ∀ {w s}, Handy T L s w →
    (Registry.version s.flowId s.flowVersion).run.Always beside guard
      (fun o w => (∀ f, o = .ok f → F s.flowId f w) ∧ Handy T L s w) w
  live : settings.engine.binding = .latest ∨ (∃ node, c = .giveBack node) → ∀ {w s}, Handy T L s w →
    (Registry.published s.flowId).run.Always beside guard
      (fun o w => (∀ f, o = .ok f → F s.flowId f w) ∧ Handy T L s w) w
  /-- The changes of the session. -/
  free : ∀ {w s}, L s w → lets w
  keep : ∀ {w s}, L s w → K s w
  record : ∀ {w s text now}, L s w → c.said? = some text → T now →
    ∀ id, K (recorded s text id now) w
  close : c = .close → ∀ {w s now}, L s w → T now → K (ended s now) w
  assign : ∀ agent, c = .assign agent → ∀ {w s now}, L s w → T now → K (taken s agent now) w
  back : ∀ {w s}, L s w → K (givenBack s) w
  saved : ∀ {w s} (circ : Circumstance), K s w → lets w →
    (w.answer circ (.saveSession s)).2 = .ok () →
    K s (w.answer circ (.saveSession s)).1
  foundSaved : ∀ {w s flow f} (circ : Circumstance), F flow f w → K s w →
    F flow f (w.answer circ (.saveSession s)).1
  begins : ∀ {w s f}, K s w → F s.flowId f w →
    P f (begun { s with flowVersion := f.version }) w
  scene : ∀ f, Scene.Conserves ⟨sid, f, settings⟩ beside T lets (P f)

variable {settings : Settings} {sid : String} {c : Command} {beside : World → World → Prop}
  {guard : World → Ask → Prop} {T : Millis → Prop} {lets : World → Prop}
  {L K : Session → World → Prop} {F : String → Flow → World → Prop}
  {P : Flow → Session → World → Prop} {w : World} {s : Session}

section
variable (h : Conserves settings sid c beside guard T lets L K F P)
include h

theorem Conserves.lasts_loaded (s : Session) : Lasts beside (Handy T L s) :=
  (h.loaded s).and (lasts_clock h.clock)

theorem Conserves.lasts_kept (s : Session) : Lasts beside (Handy T K s) :=
  (h.kept s).and (lasts_clock h.clock)

/-- Keeping a session that may be kept. -/
theorem save_conserves (hs : Handy T K s w) (hw : lets w) {I : World → Prop} (hI : Lasts beside I)
    (hsaved : ∀ w circ, I w → K s w → I (w.answer circ (.saveSession s)).1) (hi : I w) :
    (saveSession s).run.Always beside guard
      (Either (fun _ w => Handy T K s w ∧ I w) fun _ _ => True) w := by
  refine always_question fun w₁ hb => ?_
  have hs₁ := (h.lasts_kept s).others hb hs
  have hw₁ := h.letting.others hb hw
  have hi₁ := hI.others hb hi
  refine ⟨h.save hs₁.1 hw₁, fun circ => ?_⟩
  have hkept := h.saved circ hs₁.1 hw₁
  cases ho : (w₁.answer circ (.saveSession s)).2 with
  | error e => exact trivial
  | ok u =>
    have hclock : T (w₁.answer circ (.saveSession s)).1.clock := by
      rw [clock_answer]
      exact hs₁.2
    exact ⟨⟨hkept ho, hclock⟩, hsaved w₁ circ hi₁ hs₁.1⟩

/-- What the customer says is recorded, and what holds of a flow that was found holds on. -/
theorem record_conserves {text : String} (ht : c.said? = some text) {I : World → Prop}
    (hI : Lasts beside I)
    (hsaved : ∀ w y circ, I w → K y w → I (w.answer circ (.saveSession y)).1)
    (hs : Handy T L s w) (hi : I w) :
    (record sid s text).run.Always beside guard
      (Either (fun y w => (Handy T K y w ∧ I w) ∧ y.flowId = s.flowId) fun _ _ => True) w := by
  unfold record
  have hJ := (h.lasts_loaded s).and hI
  refine always_behind (p := fresh .message) (P := fun _ => True) ⟨trivial, fun _ => trivial⟩
    h.locals hJ ⟨hs, hi⟩ fun id w _ _ hw => ?_
  refine always_lift (p := now) fun w₁ hb => ⟨h.locals _ _ trivial, fun _ => ?_⟩
  have hw₁ := hJ.others hb hw
  have hrecorded : Handy T K (recorded s text id w₁.clock) w₁ :=
    ⟨h.record hw₁.1.1 ht hw₁.1.2 id, hw₁.1.2⟩
  have hsave := save_conserves h hrecorded (h.free hw₁.1.1) hI (fun w circ => hsaved w _ circ) hw₁.2
  refine always_tried (p := saveSession (recorded s text id w₁.clock)) (hsave.imp_post ?_)
  rintro (e | u) w hkept
  · exact trivial
  exact always_behind (asks_deliver _) h.locals ((h.lasts_kept _).and hI) hkept
    fun _ w _ _ hkept => ⟨hkept, rfl⟩

/-- The turn of a command. -/
theorem turn_conserves {f : Flow} (st : Turn.Step) (hs : Handy T K s w)
    (hf : F s.flowId f w) :
    (turn settings sid s f st).run.Always beside guard (fun _ _ => True) w := by
  have hI := (h.lasts_kept s).and (h.found s.flowId f)
  have hask (q : Ask) (hq : q.Local) : (question q).Asks Ask.Local fun _ => True :=
    ⟨hq, fun _ => trivial⟩
  unfold turn
  refine always_behind (hask .openTurn trivial) h.locals hI ⟨hs, hf⟩ fun _ w _ _ hw => ?_
  have hbegun := h.begins hw.1.1 hw.2
  have hturn := Scene.turn_conserves (h.scene f) h.locals h.saveTurn st hbegun hw.1.2
  refine always_lift (hturn.imp_post fun report w _ => ?_)
  exact always_behind (hask .closeTurn trivial) h.locals (lasts_true _) trivial
    fun _ _ _ _ _ => trivial

/-! ### Parts of commands -/

/-- A turn once it is told that one begins. -/
theorem announced_conserves {f : Flow} (st : Turn.Step) (node : String) (e : SessionEvent)
    (hs : Handy T K s w) (hf : F s.flowId f w) :
    (do
      emitSession sid node e
      turn settings sid s f st : Procedure Report).run.Always beside guard (fun _ _ => True) w :=
  always_behind (asks_emit _ _ _) h.locals ((h.lasts_kept s).and (h.found s.flowId f)) ⟨hs, hf⟩
    fun _ _ _ _ hw => turn_conserves h st hw.1 hw.2

/-- A turn once it is recorded what the customer says. -/
theorem said_conserves {text : String} (ht : c.said? = some text) {f : Flow} (st : Turn.Step)
    (node : String) (hs : Handy T L s w) (hf : F s.flowId f w) :
    (do
      let s ← record sid s text
      emitSession sid node .resumed
      turn settings sid s f st : Procedure Report).run.Always beside guard (fun _ _ => True) w := by
  have hrecord := record_conserves h ht (h.found s.flowId f)
    (fun _ _ circ hf hy => h.foundSaved circ hf hy) hs hf
  refine always_tried (hrecord.imp_post ?_)
  rintro (e | y) w hy
  · exact trivial
  obtain ⟨⟨hy, hf⟩, hflow⟩ := hy
  exact announced_conserves h st node .resumed hy (by rwa [hflow])

omit h in
/-- A look-up of a flow, before the rest of a command. -/
theorem lookup_conserves {p : Procedure Flow} {f : Flow → Procedure Report}
    (hp : p.run.Always beside guard
      (fun o w => (∀ f, o = .ok f → F s.flowId f w) ∧ Handy T L s w) w)
    (hf : ∀ g w, F s.flowId g w → Handy T L s w →
      (f g).run.Always beside guard (fun _ _ => True) w) :
    (p >>= f).run.Always beside guard (fun _ _ => True) w := by
  refine always_tried (hp.imp_post ?_)
  rintro (e | g) w ⟨hg, hs⟩
  · exact trivial
  · exact hf g w (hg g rfl) hs

theorem resumeFlow_conserves (node : String) (hs : Handy T L s w) :
    (resumeFlow settings s node).run.Always beside guard
      (fun o w => (∀ f, o = .ok f → F s.flowId f w) ∧ Handy T L s w) w := by
  unfold resumeFlow
  split
  · exact h.version hs
  · rename_i hb
    refine always_tried ((h.live (.inl hb) hs).imp_post ?_)
    rintro (e | g) w hw
    · exact ⟨nofun, hw.2⟩
    dsimp only [Either]
    split
    · exact hw
    · exact h.version hw.2

/-! ### All commands -/

theorem text_conserves {t : String} (hc : c = .text t) (hs : Handy T L s w) :
    (submitText settings sid s t).run.Always beside guard (fun _ _ => True) w := by
  have ht : c.said? = some t := by rw [hc]; rfl
  unfold submitText
  split
  · refine always_tried ((record_conserves h ht (lasts_true _) (fun _ _ _ _ _ => trivial) hs
      trivial).imp_post ?_)
    rintro (e | y) w -
    · exact trivial
    · exact trivial
  · split
    · rename_i node _
      exact lookup_conserves (resumeFlow_conserves h node hs) fun f w hf hs =>
        said_conserves h ht _ node hs hf
    · rename_i x _ _
      split
      · exact lookup_conserves (resumeFlow_conserves h x.nodeId hs) fun f w hf hs =>
          said_conserves h ht _ x.nodeId hs hf
      · exact trivial
    · exact trivial

theorem click_conserves {id label : String} (hc : c = .click id label) (hs : Handy T L s w) :
    (submitClick settings sid s id label).run.Always beside guard (fun _ _ => True) w := by
  have ht : c.said? = some label := by rw [hc]; rfl
  unfold submitClick
  split
  · exact trivial
  · rename_i node _
    refine lookup_conserves (resumeFlow_conserves h node hs) fun f w hf hs => ?_
    dsimp only
    split
    · exact trivial
    · exact said_conserves h ht _ node hs hf

theorem close_conserves (hc : c = .close) (hs : Handy T L s w) :
    (closeSession sid s).run.Always beside guard (fun _ _ => True) w := by
  unfold closeSession
  refine always_lift (p := now) fun w₁ hb => ⟨h.locals _ _ trivial, fun _ => ?_⟩
  have hs₁ := (h.lasts_loaded s).others hb hs
  have hended : Handy T K (ended s w₁.clock) w₁ := ⟨h.close hc hs₁.1 hs₁.2, hs₁.2⟩
  refine always_tried ((save_conserves h hended (h.free hs₁.1) (lasts_true _)
    (fun _ _ _ _ => trivial) trivial).imp_post ?_)
  rintro (e | u) w -
  · exact trivial
  refine always_behind (asks_deliver _) h.locals (lasts_true _) trivial fun _ w _ _ _ => ?_
  exact always_behind (asks_emit _ _ _) h.locals (lasts_true _) trivial fun _ _ _ _ _ => trivial

theorem assign_conserves {agent : String} (hc : c = .assign agent) (hs : Handy T L s w) :
    (assignAgent sid s agent).run.Always beside guard (fun _ _ => True) w := by
  unfold assignAgent
  split
  · exact trivial
  refine always_lift (p := now) fun w₁ hb => ⟨h.locals _ _ trivial, fun _ => ?_⟩
  have hs₁ := (h.lasts_loaded s).others hb hs
  have htaken : Handy T K (taken s agent w₁.clock) w₁ := ⟨h.assign agent hc hs₁.1 hs₁.2, hs₁.2⟩
  refine always_tried ((save_conserves h htaken (h.free hs₁.1) (lasts_true _)
    (fun _ _ _ _ => trivial) trivial).imp_post ?_)
  rintro (e | u) w -
  · exact trivial
  · exact trivial

theorem giveBack_conserves {node : Option String} (hc : c = .giveBack node) (hs : Handy T L s w) :
    (returnToFlow settings sid s node).run.Always beside guard (fun _ _ => True) w := by
  unfold returnToFlow
  split
  · exact trivial
  refine lookup_conserves (h.live (.inr ⟨node, hc⟩) hs) fun f w hf hs => ?_
  dsimp only
  split
  · exact trivial
  have hback : Handy T K (givenBack s) w := ⟨h.back hs.1, hs.2⟩
  exact announced_conserves h _ _ .resumed hback hf

/-- **All commands** to a session that was read. -/
theorem submit_conserves (hs : Handy T L s w) :
    (match c with
      | .start => startSession settings sid s
      | .text t => submitText settings sid s t
      | .click id label => submitClick settings sid s id label
      | .close => closeSession sid s
      | .recover => recoverSession settings sid s
      | .assign agent => assignAgent sid s agent
      | .giveBack node => returnToFlow settings sid s node).run.Always beside guard
        (fun _ _ => True) w := by
  have hready {w : World} (hs : Handy T L s w) : Handy T K s w := ⟨h.keep hs.1, hs.2⟩
  cases c with
  | start =>
    exact lookup_conserves (h.version hs) fun f w hf hs =>
      announced_conserves h _ _ .started (hready hs) hf
  | text t => exact text_conserves h rfl hs
  | click id label => exact click_conserves h rfl hs
  | close => exact close_conserves h rfl hs
  | recover =>
    show Always _ _ _ (recoverSession settings sid s).run w
    unfold recoverSession
    split
    · exact trivial
    · exact lookup_conserves (h.version hs) fun f w hf hs => turn_conserves h _ (hready hs) hf
  | assign agent => exact assign_conserves h rfl hs
  | giveBack node => exact giveBack_conserves h rfl hs

/-- **A command** keeps only sessions of which the condition holds, if it holds of the session that
it reads. -/
theorem handle_conserves
    (hload : ∀ w₁ s, beside w w₁ → w₁.store.loadSession sid = .ok s → s.isClosed = false →
      Handy T L s w₁) :
    (handle settings sid c).run.Always beside guard (fun _ _ => True) w := by
  refine always_tried (p := loadSession sid) fun w₁ hb => ⟨h.load w₁, fun circ => ?_⟩
  show Either _ _ (w₁.store.loadSession sid) w₁
  cases hs : w₁.store.loadSession sid with
  | error f => exact trivial
  | ok s =>
    show Always _ _ _ (ExceptT.run (if s.isClosed = true then _ else _)) w₁
    cases hc : s.isClosed with
    | true => exact trivial
    | false => exact submit_conserves h (hload w₁ s hb hs hc)

end

end Command

end Dialogue
