import Dialogue.Proofs.Engine.Grown
import Dialogue.Proofs.Session.Rejection
import Dialogue.Proofs.Session.Shape

/-! # Texts for sessions that wait

A session that is not closed takes a text whenever a node of it waits or a halt of it can be tried
again, however often its flow was drawn and published anew since: the text reaches the agent, or
a turn runs and leaves the session as its ending says. The one exception is by design: a node that
the live version has in the place of the one that waited, and that awaits no reply, refuses it.

* `Comes.leaves`: what a turn leaves.
* `Grown.welcomes`: what comes of a text. -/

namespace Dialogue

open Turn World Program

/-- The session is to get a text: it is not closed, and a node waits or a halt can be tried
again. -/
structure Session.Waits (s : Session) : Prop where
  unclosed : s.isClosed = false
  waits : s.currentNode.isSome ∨ ∃ h, s.halt = some h ∧ h.retryable = true

/-- What a turn with that ending leaves; where it was cut nothing is said of it. -/
def Turn.Ending.Leaves (s : Session) : Ending → Prop
  | .paused => s.currentNode.isSome
  | .handoff => s.status = .waiting ∧ s.queue.isSome
  | .closed => s.status = .closed
  | .halted => s.halt.isSome
  | .ended | .aborted => True
  | .relayed | .assigned => False

/-! ### What a turn leaves -/

namespace Turn.Scene

variable {sc : Scene} {start stand : Stand} {r₀ r : SessionRow} {s y : Session} {e : Ending}

theorem Writes.leaves (h : sc.Writes stand y (.over s e)) : y = s ∧ e.Leaves s := by
  refine ⟨h.session_eq.symm, ?_⟩
  generalize hn : Stand.over s e = next at h
  cases h with
  | halt x h diagnosis now =>
    cases hn
    exact rfl
  | @node x st o route ho hr spoken now =>
    cases route with
    | go next => nomatch hn
    | halt kind text again => nomatch hn
    | handoff queue reason =>
      cases hn
      exact ⟨rfl, rfl⟩
    | finish => cases hn; exact trivial
    | pause | close => cases hn; exact rfl

/-- **A turn that is over** has kept what its ending says. -/
theorem Comes.leaves (h : sc.Comes start r₀ (.over s e) r) (hs : ∀ s e, start ≠ .over s e) :
    r = .ofSession s ∧ e.Leaves s := by
  cases h with
  | begun => exact absurd rfl (hs s e)
  | wrote _ hw =>
    obtain ⟨rfl, he⟩ := hw.leaves
    exact ⟨rfl, he⟩

end Turn.Scene

/-! ### What comes of a text -/

namespace Command

variable {settings : Settings} {L : Library} {sid t : String} {r₀ r : SessionRow} {rep : Report}

/-- What comes of a text that is taken. -/
theorem Ends.leaves (h : Ends settings L sid (.text t) r₀ rep r) {s : Session}
    (hs : r₀.toSession = .ok s) :
    (isQueued s = true ∧ rep.ending = .relayed ∨ isQueued s = false ∧ rep.ending.Leaves rep.session)
      ∧ (rep.ending ≠ .aborted → r = .ofSession rep.session) := by
  have hsame {x : Session} (hx : Opens r₀ x) : x = s := Except.ok.inj (hx.1.symm.trans hs)
  cases h with
  | direct hx hd =>
    obtain rfl := hsame hx
    cases hd with
    | relay hq id now => exact ⟨.inl ⟨hq, rfl⟩, fun _ => rfl⟩
  | @turn x _ _ _ _ _ _ _ hx hp hb hc he =>
    obtain rfl := hsame hx
    have hq : isQueued x = false := by
      cases hp with
      | reply hq => exact hq
      | retry hq => exact hq
    by_cases hcut : rep.ending = .aborted
    · exact ⟨.inr ⟨hq, by rw [hcut]; exact trivial⟩, fun hne => absurd hcut hne⟩
    · rw [he hcut] at hc
      obtain ⟨hr, hleaves⟩ := hc.leaves fun x e => Plan.start_ne_over _ x e
      exact ⟨.inr ⟨hq, hleaves⟩, fun _ => hr⟩

/-- A session that waits refuses no text at once. -/
theorem not_refuses {s : Session} {ref : Refusal} (hs : s.Waits) :
    ¬ Refuses settings L s (.text t) ref := by
  intro h
  cases h with
  | closed hc => rw [hs.unclosed] at hc; cases hc
  | text hq hn hh =>
    rcases hs.waits with hc | ⟨h, hhalt, hr⟩
    · rw [hn] at hc
      cases hc
    · rw [hh h hhalt] at hr
      cases hr

end Command

namespace World

variable {w : World} {sid : String} {r : SessionRow} {s : Session}

/-- A live flow has a live version that compiles. -/
theorem Sound.exists_liveFlow (h : w.Sound) {flow : String} (hl : w.store.Live flow) :
    ∃ f, w.store.liveFlow flow = .ok f := by
  obtain ⟨r, hr, hv⟩ := hl
  obtain ⟨d, rfl, hback, -⟩ := h.flows flow r hr
  have hd := (Store.loadFlow_eq h.registered hr).trans (FlowRow.toDefinition_ofDefinition hback)
  obtain ⟨hid, hlive⟩ := Registry.live_iff hd
  have hne := hlive.mp ⟨_, hr, hv⟩
  obtain ⟨f, hf⟩ := (h.loadFlow hd).2.2.2 hne
  exact ⟨f, (Store.liveFlow_eq hd hne).trans (hid ▸ hf)⟩

/-- **Texts for sessions that wait.** A text for a stored session that waits comes to an end
wherever it has come. If the session is with a queue or an agent the text is passed on, else a turn
runs and leaves the session as its ending says. The text fails only if it does not fit the node that
the live version has in the place of the one that waits, and then it is a refusal. -/
theorem Grown.welcomes (h : Grown w) (hr : w.store.row? sid = some r) (hs : r.toSession = .ok s)
    (hwaits : s.Waits) (settings : Settings) (t : String) :
    (∀ p w₁, Leads Resting (fun _ => True) (Command.handle settings sid (.text t)).run w p w₁ →
      ∃ o w', Leads Resting (fun _ => True) p w₁ (.done o) w') ∧
    ∀ o w', Leads Resting (fun _ => True) (Command.handle settings sid (.text t)).run w
        (.done o) w' →
      (∃ rep, o = .ok rep ∧
        (Command.isQueued s = true ∧ rep.ending = .relayed ∨
          Command.isQueued s = false ∧ rep.ending.Leaves rep.session) ∧
        (rep.ending ≠ .aborted → w'.store.row? sid = some (.ofSession rep.session))) ∨
      ∃ e, o = .error e ∧ e.isSession = true ∧ Command.Misfit settings w.store r (.text t) := by
  refine ⟨fun p w₁ _ => ⟨_, _, leads_run Resting.refl (calm .unreachable) 0 p w₁⟩,
    fun o w' hl => ?_⟩
  have hw := h.reached.sound
  have hcame := (Command.course_always settings (.text t) hw hr).leads
    (hl.among fun _ _ hb => hb.toIdle)
  cases o with
  | ok rep =>
    obtain ⟨r', hends, hholds⟩ := hcame
    obtain ⟨hending, hrow⟩ := hends.leaves hs
    exact .inl ⟨rep, rfl, hending, fun hne => hrow hne ▸ hholds.2⟩
  | error e =>
    refine .inr ⟨e, rfl, ?_⟩
    obtain ⟨r', told, hfails, -⟩ := hcame
    cases hfails with
    | unreadable hx => rw [hs] at hx; cases hx
    | refused hx href =>
      rw [hs] at hx
      cases hx
      exact absurd href (Command.not_refuses hwaits)
    | lacking hx hlacks =>
      -- the live version is there, and so is the one of the session
      obtain ⟨f, hf, hplaced⟩ := (hw.sessions sid r hr).session hx.1
      obtain ⟨g, hg⟩ := hw.exists_liveFlow (h.standing.live sid r hr)
      have hlive := hlacks.live hplaced hf
      rw [(SessionRow.toSession_eq_ok hx.1).2.1, hg] at hlive
      cases hlive
    | misfit hx hp hb hst hn ha he =>
      obtain ⟨f, hf, hplaced⟩ := (hw.sessions sid r hr).session hx.1
      exact ⟨he, (hp.misfit hx hplaced hf hw.keepsLive hst hn ha).1⟩

/-! ### The session whose flow was drawn anew -/

theorem Grown.doing {α : Type} {p : Program α} (h : Grown w) (hd : w.Deed p) : Grown (w.doing p) :=
  h.did hd (leads_run Resting.refl (calm .unreachable) 0 p w)

theorem Grown.publishing (h : Grown w) {draft : Graph} (hd : draft.ReadsBack) {n : Nat}
    (hn : n < 0x7fffffffffffffff)
    (hv : (((w.doing (Registry.saveDraft "f1" draft).run).store.loadFlow "f1").toOption.map
      (·.version)) = some n) : Grown (w.publishing draft) := by
  refine (h.doing (.saveDraft "f1" hd)).doing (.publish "f1" fun d hload => ?_)
  rw [hload] at hv
  have hv : d.version = n := Option.some.inj hv
  omega

/-- The flow was made, drawn and published, and a session waits in it. -/
def asked : World :=
  ((((new .empty 0).doing (Registry.createFlow "").run).publishing asking).doing
    (Command.openSession "f1").run).doing (Command.handle .default "s1" .start).run

/-- The versions of the flow before each publication, and the session that waits. -/
theorem retold_versions :
    (((((new .empty 0).doing (Registry.createFlow "").run).doing
      (Registry.saveDraft "f1" asking).run).store.loadFlow "f1").toOption.map (·.version)) =
        some 0 ∧
    (((asked.doing (Registry.saveDraft "f1" telling).run).store.loadFlow "f1").toOption.map
      (·.version)) = some 1 ∧
    ((retold.store.loadSession "s1").toOption.map fun s => (s.status, s.currentNode)) =
      some (.bot, some "n") := by
  refine ⟨?_, ?_, ?_⟩
  · have hback : (firstFlow asking none 0).ReadsBack := ⟨readsBack_asking, nofun⟩
    rw [loadFlow_drawn loadFlow_created (by rw [doing_createFlow]; rfl) rfl hback.readsAs
      (by decide)]
    rfl
  · have hback : (firstFlow telling (some asking) 1).ReadsBack :=
      ⟨readsBack_telling, by rintro _ ⟨⟩; exact readsBack_asking⟩
    rw [asked, begun_asking, loadFlow_drawn loadFlow_asking clock_asking rfl hback.readsAs
      (by decide)]
    rfl
  · rw [retold_eq]
    decide +kernel

theorem grown_retold : Grown retold := by
  obtain ⟨hzero, hone, -⟩ := retold_versions
  have hmade := (Grown.new 0).doing (.createFlow "")
  have hasking := hmade.publishing readsBack_asking (by decide) hzero
  have hopened := hasking.doing (.openSession "f1")
  have hwaits := hopened.doing (.command .default "s1" .start)
  exact hwaits.publishing readsBack_telling (by decide) hone

theorem retold_waits : ∃ r s, retold.store.row? "s1" = some r ∧ r.toSession = .ok s ∧
    s.currentNode.isSome ∧ s.Waits := by
  obtain ⟨r, hr, -⟩ := exists_retold
  have h := retold_versions.2.2
  rw [Store.loadSession_eq grown_retold.reached.sound.registered hr] at h
  cases hs : r.toSession with
  | error e => rw [hs] at h; cases h
  | ok s =>
    rw [hs] at h
    obtain ⟨hstatus, hcurrent⟩ := Prod.mk.inj (Option.some.inj h)
    have hwaits : s.currentNode.isSome := by rw [hcurrent]; rfl
    exact ⟨r, s, hr, hs, hwaits, by rw [Session.isClosed, hstatus]; rfl, .inl hwaits⟩

/-- The session takes a text if sessions go on with their own versions. -/
theorem welcomes_retold : ∃ r s rep w', Grown retold ∧ retold.store.row? "s1" = some r ∧
    r.toSession = .ok s ∧ s.Waits ∧
    Leads Resting (fun _ => True) (Command.handle .pinned "s1" (.text "x")).run retold
      (.done (.ok rep)) w' ∧
    (Command.isQueued s = true ∧ rep.ending = .relayed ∨
      Command.isQueued s = false ∧ rep.ending.Leaves rep.session) := by
  obtain ⟨r, s, hr, hs, -, hwaits⟩ := retold_waits
  obtain ⟨hends, hcame⟩ := grown_retold.welcomes hr hs hwaits .pinned "x"
  obtain ⟨o, w', hl⟩ := hends _ _ (.refl _ _)
  rcases hcame o w' hl with ⟨rep, rfl, hending, -⟩ | ⟨e, -, -, hmisfit⟩
  · exact ⟨r, s, rep, w', grown_retold, hr, hs, hwaits, hl, hending⟩
  · -- a text that does not fit is one for a live version
    cases hmisfit with
    | mk hb => nomatch hb

/-- **A text that is refused** by a session that waits, in place of whose node the live version has
one that says something. -/
theorem unwelcome_retold : ∃ r s e w', Grown retold ∧ retold.store.row? "s1" = some r ∧
    r.toSession = .ok s ∧ s.currentNode.isSome ∧ s.Waits ∧
    Leads Resting (fun _ => True) (Command.handle .default "s1" (.text "x")).run retold
      (.done (.error e)) w' := by
  obtain ⟨r, s, hr, hs, hcurrent, hwaits⟩ := retold_waits
  have hrefusal := retold_refuses.2.1
  have hl := leads_run Resting.refl (calm .unreachable) 0
    (Command.handle .default "s1" (.text "x")).run retold
  rw [perform] at hrefusal
  generalize retold.run (calm .unreachable) 0 (Command.handle .default "s1" (.text "x")).run =
    answered at hl hrefusal
  obtain ⟨n, w', o⟩ := answered
  cases o with
  | ok rep => cases hrefusal
  | error e => exact ⟨r, s, e, w', grown_retold, hr, hs, hcurrent, hwaits, hl⟩

end World

end Dialogue
