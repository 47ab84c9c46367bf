import Dialogue.Proofs.Engine.Reached

/-! # Flows that stay published

The engine gives every identity once only. So no new flow takes the place of another one, and a
flow that was published has a live version from then on, however often it is drawn and published
anew. Every session runs on such a flow.

* `standing_answer`: what the answer to one question leaves.
* `Grown.standing`: what a whole history leaves, in which one thing is done after the other. -/

namespace Dialogue

open Program Procedure World

/-- The flow has a live version. -/
def Store.Live (s : Store) (flow : String) : Prop :=
  ∃ r, s.flows.row? flow = some r ∧ 0 < r.version

namespace World

variable {w w' : World}

/-- The identity was given to a flow. -/
def Given (w : World) (flow : String) : Prop := ∃ n ≤ w.flows, flow = "f" ++ toString n

/-- Nobody else changes flows, versions or sessions, and no identity is given twice. -/
structure Resting (w w' : World) : Prop extends Idle w w' where
  given : w.flows ≤ w'.flows

theorem Resting.refl (w : World) : w.Resting w := ⟨.refl w, Nat.le_refl _⟩

/-- Flows have identities that were given, and every session runs on a flow that is live. -/
structure Standing (w : World) : Prop where
  given : ∀ id r, w.store.flows.row? id = some r → w.Given id
  live : ∀ sid r, w.store.row? sid = some r → w.store.Live r.flowId

theorem Given.mono {id : String} (h : w.Given id) (hn : w.flows ≤ w'.flows) : w'.Given id := by
  obtain ⟨n, hle, rfl⟩ := h
  exact ⟨n, Nat.le_trans hle hn, rfl⟩

/-- The next identity was not given yet. -/
theorem not_given_next (w : World) : ¬ w.Given ("f" ++ toString (w.flows + 1)) := by
  rintro ⟨n, hn, he⟩
  have := toString_injective (String.append_right_inj _ |>.mp he)
  omega

theorem Standing.of_same (h : w.Standing) (hf : w'.store.flows = w.store.flows)
    (hs : w'.store.sessions = w.store.sessions) (hn : w.flows ≤ w'.flows) : w'.Standing where
  given id r hr := (h.given id r (hf ▸ hr)).mono hn
  live sid r hr := by
    rw [Store.row?, hs] at hr
    rw [Store.Live, hf]
    exact h.live sid r hr

theorem Resting.standing (hb : w.Resting w') (h : w.Standing) : w'.Standing :=
  h.of_same hb.flows hb.sessions hb.given

theorem flows_le_answer {a : Ask} (w : World) (c : Circumstance) :
    w.flows ≤ (w.answer c a).1.flows := by
  cases a with
  | fresh i => cases i <;> simp [answer, fresh]
  | createSession | saveSession | saveFlow | saveVersion =>
    simp only [answer, change]
    split <;> exact Nat.le_refl _
  | _ => exact Nat.le_refl _

theorem Standing.quiet {a : Ask} (h : w.Standing) (ha : a.Quiet) (c : Circumstance) :
    (w.answer c a).1.Standing := by
  have hw := alike_answer ha w c
  exact h.of_same hw.flows hw.sessions (flows_le_answer w c)

end World

/-- The question leaves live flows live, and keeps sessions on live flows only. -/
def Ask.Upholds (w : World) : Ask → Prop
  | .saveFlow d => w.Given d.id ∧ (w.store.Live d.id → 0 < (FlowRow.ofDefinition d).version)
  | .createSession y | .saveSession y => w.store.Live y.flowId
  | _ => True

namespace World

variable {w w' : World}

/-- A session is kept on a live flow. -/
theorem Standing.keep_session (h : w.Standing) {y : Session} {sessions : Collection SessionRow}
    (hy : w.store.Live y.flowId)
    (hrow : ∀ id, sessions.row? id =
      if id = y.id then some (.ofSession y) else w.store.row? id) :
    Standing { w with store := { w.store with sessions } } where
  given := h.given
  live sid r hr := by
    rw [Store.row?, hrow] at hr
    split at hr
    · cases hr
      exact hy
    · exact h.live sid r hr

/-- Keeping a flow leaves every live flow live if it leaves its own one so. -/
theorem live_saveFlow {d : Definition} {s s' : Store} {flow : String} (hs : s.saveFlow d = .ok s')
    (hd : s.Live d.id → 0 < (FlowRow.ofDefinition d).version) (h : s.Live flow) : s'.Live flow := by
  obtain rfl := Store.saveFlow_eq_ok hs
  by_cases he : flow = d.id
  · subst he
    exact ⟨_, (Collection.row?_put _ _ _).trans (if_pos rfl), hd h⟩
  · obtain ⟨r, hr, hv⟩ := h
    exact ⟨r, (Collection.row?_put _ _ _).trans ((if_neg he).trans hr), hv⟩

/-- **The answer to a question** that upholds live flows. -/
theorem standing_answer {a : Ask} (h : w.Standing) (ha : a.Upholds w) (c : Circumstance) :
    (w.answer c a).1.Standing := by
  cases a with
  | saveFlow d =>
    simp only [answer]
    cases hs : w.store.saveFlow d with
    | error e => exact h
    | ok s' =>
      have hlive : ∀ flow, w.store.Live flow → s'.Live flow := fun _ => live_saveFlow hs ha.2
      obtain rfl := Store.saveFlow_eq_ok hs
      refine ⟨fun id r hr => ?_, fun sid r hr => hlive _ (h.live sid r hr)⟩
      simp only [change] at hr
      rw [Collection.row?_put] at hr
      split at hr
      · rename_i he
        exact he ▸ ha.1
      · exact h.given id r hr
  | saveVersion flow v g now =>
    simp only [answer]
    cases hs : w.store.saveVersion flow v g now with
    | error e => exact h
    | ok s' =>
      obtain ⟨-, versions, rfl, -⟩ := Store.saveVersion_eq_ok hs
      exact ⟨h.given, h.live⟩
  | createSession y =>
    simp only [answer]
    cases hs : w.store.createSession y with
    | error e => exact h
    | ok s' =>
      obtain ⟨-, sessions, rfl, -, hrow⟩ := Store.createSession_eq_ok hs
      exact h.keep_session ha hrow
  | saveSession y =>
    simp only [answer]
    cases hs : w.store.saveSession y with
    | error e => exact h
    | ok s' =>
      obtain ⟨sessions, rfl, hrow⟩ := Store.saveSession_eq_ok hs
      exact h.keep_session ha hrow
  | remember key f => exact ⟨h.given, h.live⟩
  | deliver d => exact ⟨h.given, h.live⟩
  | _ =>
    refine h.quiet ?_ c
    trivial

end World

/-! ### What the engine does -/

namespace Registry

variable {w : World}

theorem createFlow_upholds (name : String) (hw : w.Standing) :
    (createFlow name).run.Always Resting Ask.Upholds (fun _ _ => True) w := by
  unfold createFlow
  refine always_lift (p := Program.now) fun w₁ hb₁ => ⟨trivial, fun c₁ => ?_⟩
  refine always_lift (p := fresh .flow) fun w₂ hb₂ => ⟨trivial, fun c₂ => ?_⟩
  have hw₂ := hb₂.standing (hb₁.standing hw)
  refine always_tried (p := saveFlow _) fun w₃ hb₃ => ⟨⟨?_, fun hlive => ?_⟩, fun c₃ => ?_⟩
  · exact ⟨_, hb₃.given, rfl⟩
  · -- there is no flow of that identity yet
    obtain ⟨r, hr, -⟩ := hlive
    rw [hb₃.flows] at hr
    exact absurd (hw₂.given _ r hr) (not_given_next w₂)
  · cases (w₃.answer c₃ _).2 <;> exact trivial

/-- A flow that was loaded is live if its version is not zero. -/
theorem live_iff {s : Store} {flow : String} {d : Definition} (h : s.loadFlow flow = .ok d) :
    d.id = flow ∧ (s.Live flow ↔ d.version ≠ 0) := by
  obtain ⟨-, r, hr, hd⟩ := Store.loadFlow_eq_ok h
  obtain ⟨hid, hv, -⟩ := FlowRow.toDefinition_eq_ok hd
  refine ⟨hid.trans (Collection.id_of_row? hr), ?_⟩
  have hpos : 0 < r.version ↔ d.version ≠ 0 := by
    rw [hv, ofSigned64]
    omega
  rw [← hpos, Store.Live, hr]
  exact ⟨fun ⟨_, h, hv⟩ => Option.some.inj h ▸ hv, fun hv => ⟨r, rfl, hv⟩⟩

theorem saveDraft_upholds (flow : String) (draft : Graph) (hw : w.Sound) (hs : w.Standing) :
    (saveDraft flow draft).run.Always Resting Ask.Upholds (fun _ _ => True) w := by
  unfold saveDraft
  refine always_lift (p := Program.now) fun w₁ hb₁ => ⟨trivial, fun c₁ => ?_⟩
  refine always_tried (p := loadFlow flow) fun w₂ hb₂ => ⟨trivial, fun c₂ => ?_⟩
  have hw₂ : w₂.Sound := hb₂.toIdle.sound (hb₁.toIdle.sound hw)
  have hs₂ := hb₂.standing (hb₁.standing hs)
  show Always _ _ _ (.done (w₂.store.loadFlow flow)) w₂
  cases hd : w₂.store.loadFlow flow with
  | error e => exact trivial
  | ok d =>
    refine always_tried (p := ExceptT.mk (pure (withDraft d draft _))) ?_
    show Always _ _ _ (.done (withDraft d draft _)) w₂
    cases hd' : withDraft d draft (w₁.answer c₁ .now).2.millis with
    | error e => exact trivial
    | ok d' =>
      obtain rfl := withDraft_eq_ok hd'
      obtain ⟨rfl, hlive⟩ := live_iff hd
      obtain ⟨-, r, hr, -⟩ := Store.loadFlow_eq_ok hd
      refine always_tried (p := saveFlow _) fun w₃ hb₃ => ⟨⟨?_, fun h => ?_⟩, fun c₃ => ?_⟩
      · exact (hs₂.given _ r hr).mono hb₃.given
      · rw [Store.Live, hb₃.flows] at h
        have hv := hlive.mp h
        have hsmall := (hw₂.loadFlow hd).2.2.1
        simp only [FlowRow.ofDefinition]
        rw [toSigned64_eq hsmall]
        omega
      · cases (w₃.answer c₃ _).2 <;> exact trivial

/-- A flow is published under a version that fits its column. -/
theorem publish_upholds (flow : String) (hs : w.Standing)
    (hfits : ∀ d, w.store.loadFlow flow = .ok d → d.version + 1 < 0x8000000000000000) :
    (publish flow).run.Always Resting Ask.Upholds (fun _ _ => True) w := by
  unfold publish
  refine always_lift (p := Program.now) fun w₁ hb₁ => ⟨trivial, fun c₁ => ?_⟩
  refine always_tried (p := loadFlow flow) fun w₂ hb₂ => ⟨trivial, fun c₂ => ?_⟩
  have hs₂ := hb₂.standing (hb₁.standing hs)
  show Always _ _ _ (.done (w₂.store.loadFlow flow)) w₂
  cases hd : w₂.store.loadFlow flow with
  | error e => exact trivial
  | ok d =>
    have hload : w.store.loadFlow flow = .ok d := by
      rw [← hd, Store.loadFlow_congr hb₂.registered hb₂.flows]
      exact (Store.loadFlow_congr hb₁.registered hb₁.flows).symm
    obtain ⟨rfl, -⟩ := live_iff hd
    obtain ⟨-, r, hr, -⟩ := Store.loadFlow_eq_ok hd
    refine always_tried (p := compile d.id (d.version + 1) d.draft) ?_
    show Always _ _ _
      (.done ((Flow.compile d.id (d.version + 1) d.draft).mapError Flow.Defect.toFailure)) w₂
    cases Flow.compile d.id (d.version + 1) d.draft with
    | error e => exact trivial
    | ok f =>
      refine always_tried (p := saveVersion d.id _ _ _) fun w₃ hb₃ => ⟨trivial, fun c₃ => ?_⟩
      -- only a version that is kept changes the world, and no flow with it
      have hgiven : (w₃.answer c₃ (.saveVersion d.id (d.version + 1) d.draft
          (w₁.answer c₁ .now).2.millis)).1.Given d.id :=
        (hs₂.given _ r hr).mono (Nat.le_trans hb₃.given (flows_le_answer w₃ c₃))
      generalize w₃.answer c₃ (.saveVersion d.id (d.version + 1) d.draft _) = answered at hgiven ⊢
      obtain ⟨w₄, e | u⟩ := answered
      · exact trivial
      refine always_tried (p := saveFlow _) fun w₅ hb₅ => ⟨⟨?_, fun _ => ?_⟩, fun c₅ => ?_⟩
      · exact hgiven.mono hb₅.given
      · simp only [FlowRow.ofDefinition]
        rw [toSigned64_eq (hfits d hload)]
        omega
      · cases (w₅.answer c₅ _).2 with
        | error e => exact trivial
        | ok u => exact fun _ _ => ⟨trivial, fun _ => trivial⟩

end Registry

namespace Command

variable {w : World}

/-- A flow whose live version is had is live. -/
theorem live_of_liveFlow {s : Store} {flow : String} {f : Flow} (h : s.liveFlow flow = .ok f) :
    s.Live flow := by
  obtain ⟨d, hd, hv, -⟩ := Store.liveFlow_eq_ok h
  exact (Registry.live_iff hd).2.mpr hv

/-- What is allowed without keeping a session upholds live flows. -/
theorem upholds_of_allowed {a : Ask} {sid : String} {writes : SessionRow → Session → Prop}
    {remembers : String → Flow → Prop} (ha : a.Allowed sid writes remembers w)
    (hwrites : ∀ r y, w.store.row? sid = some r → writes r y → w.store.Live y.flowId) :
    a.Upholds w := by
  cases a with
  | saveSession y =>
    obtain ⟨-, r, hr, hy⟩ := ha
    exact hwrites r y hr hy
  | createSession | saveFlow => exact ha.elim
  | _ => exact trivial

theorem openSession_upholds (flow : String) (hw : w.Sound) :
    (openSession flow).run.Always Resting Ask.Upholds (fun _ _ => True) w := by
  unfold openSession
  have hlive : (Registry.published flow).run.Always Idle
      (Ask.Allowed "" (fun _ _ => False) w.store.Remembers) _ w :=
    (Library.serves_ofStore w.store).live (stable_shelves w.store) (fun _ h => h) flow hw.shelves
  refine always_tried (((hlive.among fun _ _ hb => hb.toIdle).imp
    (fun _ _ ha => upholds_of_allowed ha fun _ _ _ h => h.elim) ?_))
  rintro (e | f) w₁ ⟨hf, hw₁⟩
  · exact trivial
  have hlive : w₁.store.Live flow := by
    have hlive := live_of_liveFlow (s := w.store) hf.symm
    rwa [Store.Live, ← hw₁.flows] at hlive
  refine always_lift (p := fresh .session) fun w₂ hb₂ => ⟨trivial, fun c₂ => ?_⟩
  refine always_lift (p := Program.now) fun w₃ hb₃ => ⟨trivial, fun c₃ => ?_⟩
  refine always_tried (p := createSession _) fun w₄ hb₄ => ⟨?_, fun c₄ => ?_⟩
  · show w₄.store.Live flow
    rw [Store.Live, hb₄.flows]
    show ∃ r, w₃.store.flows.row? flow = some r ∧ _
    rw [hb₃.flows]
    show ∃ r, w₂.store.flows.row? flow = some r ∧ _
    rw [hb₂.flows]
    exact hlive
  · cases (w₄.answer c₄ _).2 <;> exact trivial

/-- A command does not leave the flow of its session. -/
theorem Plans.flowId_eq {settings : Settings} {L : Library} {s : Session} {c : Command} {p : Plan}
    (h : Plans settings L s c p) : p.session.flowId = s.flowId := by
  cases h <;> rfl

theorem Plan.Begins.flowId_eq {p : Plan} {r₀ r : SessionRow} {s : Session} {told : List Delivery}
    (h : p.Begins r₀ s r told) : (p.start s).session.flowId = p.session.flowId := by
  cases h <;> rfl

theorem Direct.flowId_eq {s y : Session} {c : Command} {e : Turn.Ending} (h : Direct s c y e) :
    y.flowId = s.flowId := by
  cases h <;> rfl

theorem Writes.flowId_eq {settings : Settings} {L : Library} {sid : String} {c : Command}
    {r₀ r : SessionRow} {y : Session} (h : Writes settings L sid c r₀ r y) :
    y.flowId = r₀.flowId := by
  have hrow {s : Session} (hs : Opens r₀ s) : s.flowId = r₀.flowId :=
    (SessionRow.toSession_eq_ok hs.1).2.1
  cases h with
  | direct hs hd => rw [hd.flowId_eq, hrow hs]
  | record hs hp ht id now => exact hp.flowId_eq.trans (hrow hs)
  | turn hs hp hb ht =>
    obtain ⟨stand, next, hc, hw⟩ := ht
    rw [hw.flowId_eq, hc.flowId_eq, hb.flowId_eq, hp.flowId_eq, hrow hs]

theorem handle_upholds (settings : Settings) (sid : String) (c : Command) (hw : w.Sound)
    (hs : w.Standing) :
    (handle settings sid c).run.Always Resting Ask.Upholds (fun _ _ => True) w := by
  cases hr : w.store.row? sid with
  | some r =>
    have hlive := hs.live sid r hr
    -- the flows stay as they are while a command is carried out
    have hflows := ((course_always settings c hw hr).and (I := Shelves w.store)
      (fun _ _ hb => (stable_shelves w.store).others hb) (fun _ _ c ha h => ha.shelves h c)
      hw.shelves).among fun _ _ (hb : Resting _ _) => hb.toIdle
    refine hflows.imp (fun w' a ⟨ha, hw'⟩ => upholds_of_allowed ha fun r' y _ hy => ?_)
      fun _ _ _ => trivial
    rw [Store.Live, hw'.flows, hy.flowId_eq]
    exact hlive
  | none =>
    refine always_tried (p := loadSession sid) fun w₁ hb => ⟨trivial, fun circ => ?_⟩
    show Either _ _ (w₁.store.loadSession sid) w₁
    have hr₁ : w₁.store.row? sid = none := by rw [Store.row?, hb.sessions, ← Store.row?, hr]
    rw [Store.loadSession_eq_of_none (hb.toIdle.sound hw).registered hr₁]
    exact trivial

end Command

namespace World

/-- One thing that the engine does. Drafts are such that their texts are read back, and versions
are counted as far as their column goes. -/
inductive Deed (w : World) : {α : Type} → Program α → Prop
  | createFlow (name : String) : Deed w (Registry.createFlow name).run
  | saveDraft (flow : String) {draft : Graph} (hd : draft.ReadsBack) :
      Deed w (Registry.saveDraft flow draft).run
  | publish (flow : String)
      (hv : ∀ d, w.store.loadFlow flow = .ok d → d.version + 1 < 0x8000000000000000) :
      Deed w (Registry.publish flow).run
  | openSession (flow : String) : Deed w (Command.openSession flow).run
  | command (settings : Settings) (sid : String) (c : Command) :
      Deed w (Command.handle settings sid c).run

/-- What the engine comes to by doing one thing after the other, each of which may be cut anywhere,
while no identity is given twice. -/
inductive Grown : World → Prop
  | new (now : Millis) : Grown (.new .empty now)
  | rest {w w' : World} (h : Grown w) (hb : w.Resting w') : Grown w'
  | did {α : Type} {w w' : World} {p q : Program α} (h : Grown w) (hd : w.Deed p)
      (hl : Leads Resting (fun _ => True) p w q w') : Grown w'

variable {w w' : World}

theorem Grown.reached (h : Grown w) : Reached w := by
  induction h with
  | new now => exact .new now
  | rest _ hb ih => exact ih.idle hb.toIdle
  | did _ hd hl ih =>
    have hl := hl.among fun _ _ hb => hb.toIdle
    cases hd with
    | createFlow => exact ih.createFlow hl
    | saveDraft _ hd => exact ih.saveDraft hd hl
    | publish => exact ih.publish hl
    | openSession => exact ih.openSession hl
    | command => exact ih.command hl

theorem Deed.upholds {α : Type} {p : Program α} (h : w.Deed p) (hw : w.Sound) (hs : w.Standing) :
    p.Always Resting Ask.Upholds (fun _ _ => True) w := by
  cases h with
  | createFlow name => exact Registry.createFlow_upholds name hs
  | saveDraft flow _ => exact Registry.saveDraft_upholds flow _ hw hs
  | publish flow hv => exact Registry.publish_upholds flow hs hv
  | openSession flow => exact Command.openSession_upholds flow hw
  | command settings sid c => exact Command.handle_upholds settings sid c hw hs

/-- **A history of the engine** leaves every session on a flow that is live. -/
theorem Grown.standing (h : Grown w) : w.Standing := by
  induction h with
  | new now => exact ⟨nofun, nofun⟩
  | rest _ hb ih => exact hb.standing ih
  | did h hd hl ih =>
    exact (hd.upholds h.reached.sound ih).kept hl (fun _ _ hb => hb.standing)
      (fun _ _ c ha hw => standing_answer hw ha c) ih

end World

end Dialogue
