import Dialogue.Proofs.Engine.Reached

/-! # Refused commands

A command that a session refuses leaves no trace, with one exception: a text for a node that does
not wait any more. The flow may have been published anew while the session waited, with another
node in its place, and this is found out only after the text was kept and the chat backend was told
of it.

* `Misfit`: the texts that leave a trace though they are refused.
* `Plans.misfit`: no other reply reaches a node that does not await it.
* `Reached.refused`: what a refused command leaves, in either case. -/

namespace Dialogue

open Turn World Program

/-- A text for a session that waits at a node which neither waits nor offers buttons in the live
version of the flow. -/
inductive Command.Misfit (settings : Settings) (s : Store) (r : SessionRow) : Command → Prop
  | mk {f : Flow} {n : Flow.Node} {node t : String} (hb : settings.engine.binding = .latest)
      (hs : r.status = Status.bot.name) (hc : r.currentNode = some node)
      (hf : s.liveFlow r.flowId = .ok f) (hn : f.node? node = some n) (hk : ¬ n.kind.IsWaiting) :
      Misfit settings s r (.text t)

/-- A row that cannot be read is no refusal. -/
theorem SessionRow.isSession_of_toSession {r : SessionRow} {e : Failure}
    (h : r.toSession = .error e) : e.isSession = false := by
  unfold toSession at h
  rcases bind_eq_error.mp h with h | ⟨status, -, h⟩
  · unfold status? at h
    split at h
    · cases h
    · cases h; rfl
  rcases bind_eq_error.mp h with h | ⟨vars, -, h⟩
  · exact Decode.isSession_of_ofText h
  rcases bind_eq_error.mp h with h | ⟨messages, -, h⟩
  · exact Decode.isSession_of_ofText h
  rcases bind_eq_error.mp h with h | ⟨halt, -, h⟩
  · cases hr : r.halt with
    | none => rw [hr] at h; cases h
    | some t =>
      rw [hr, Option.mapM_some] at h
      rcases bind_eq_error.mp h with h | ⟨x, -, h⟩
      · exact Decode.isSession_of_ofText h
      · cases h
  · cases h

/-! ### Nodes that await a reply -/

namespace Flow.Sound

variable {f : Flow} {node : String} {n : Flow.Node}

theorem awaits_text (hf : f.Sound) (hn : f.node? node = some n) (t : String) :
    Awaits n.action (.text t) ↔ n.kind.IsWaiting := by
  have ha := (hf.of_node? hn).action
  unfold NodeKind.IsWaiting
  cases hact : n.action <;> cases hk : n.kind <;> rw [hact, hk] at ha <;>
    simp_all [Action.kind, Action.actualKind, Awaits]

theorem awaits_click (hf : f.Sound) (hn : f.node? node = some n) (hk : n.kind = .template)
    (reply : Reply) : Awaits n.action reply := by
  have ha := (hf.of_node? hn).action
  cases hact : n.action <;> rw [hact, hk] at ha <;>
    simp_all [Action.kind, Action.actualKind, Awaits]

end Flow.Sound

namespace Command

variable {settings : Settings} {L : Library} {st : Store} {c : Command} {r r₀ : SessionRow}
  {x s' : Session} {f : Flow} {p : Plan} {ref : Refusal} {told : List Delivery}

/-- What is refused at once is no such text. -/
theorem Refuses.not_misfit (h : Refuses settings L x c ref) (hx : r.toSession = .ok x) :
    ¬ c.Misfit settings st r := by
  obtain ⟨-, -, -, hstatus, hcurrent, -⟩ := SessionRow.toSession_eq_ok hx
  rintro ⟨hb, hs, hc, hf, hn, hk⟩
  cases h with
  | closed hclosed =>
    have hname := SessionRow.status_of_status? hstatus
    rw [hs, show x.status = .closed from of_decide_eq_true hclosed] at hname
    exact absurd (Status.name_injective hname) (by decide)
  | text hq hnone hh =>
    rw [hcurrent, hc] at hnone
    cases hnone

/-- A plan that takes up a reply fails at the node only for such a text. -/
theorem Plans.misfit {node : String} {reply : Reply} {n : Flow.Node}
    (h : Plans settings (.ofStore st) x c p) (hs : Opens r x) (hx : x.Placed f) (hf : st.Keeps f)
    (hlive : st.KeepsLive) (hst : p.step = .resume node reply) (hn : p.flow.node? node = some n)
    (ha : ¬ Awaits n.action reply) :
    c.Misfit settings st r ∧ ∃ t, c = .text t ∧ p.said = some t := by
  obtain ⟨-, hflow, -, -, hcurrent, -⟩ := SessionRow.toSession_eq_ok hs.1
  cases h with
  | @reply g node' t hq hc h =>
    cases hst
    have hg := (h.placed hx hf hlive (hx.executes_current hf hc)).1.sound
    have hk : ¬ n.kind.IsWaiting := fun hk => ha ((hg.awaits_text hn t).mpr hk)
    refine ⟨?_, t, rfl, rfl⟩
    rcases h.own_or_live hx hf with rfl | ⟨hb, hg, -⟩
    · -- its own version waits where the session does
      obtain ⟨n', hn', hk'⟩ := hx.places.current _ hc
      obtain rfl : n' = n := Option.some.inj (hn'.symm.trans hn)
      exact absurd hk' hk
    · refine .mk hb ?_ (hcurrent.symm.trans hc) (hflow ▸ hg) hn hk
      rw [← hs.status_name, status_of_not_queued hs.2 hq]
  | click hp hc h ha' hk =>
    cases hst
    obtain rfl := Option.some.inj (ha'.symm.trans hn)
    have hg := (h.placed hx hf hlive (hx.executes_current hf hc)).1.sound
    exact absurd (hg.awaits_click hn hk _) ha
  | start | retry | recover | giveBack => cases hst

end Command

/-! ### What a refused command leaves -/

namespace World

variable {settings : Settings} {w w' : World} {sid : String} {c : Command} {r : SessionRow}
  {e : Failure}

/-- The trace of a text: it is kept in the session, and the chat backend was told of it. -/
def Trace (w : World) (sid : String) (r : SessionRow) (t : String) (w' : World) : Prop :=
  ∃ s id now, r.toSession = .ok s ∧
    w'.store.row? sid = some (.ofSession (Command.recorded s t id now)) ∧
    w'.deliveries = w.deliveries ++ [.append sid ⟨id, .user, t, none, now⟩]

/-- **A refused command** leaves no trace, or it is a text that does not fit and leaves just the
trace of that. -/
theorem Reached.refused (h : Reached w) (hr : w.store.row? sid = some r)
    (hl : Leads Idle (fun _ => True) (Command.handle settings sid c).run w (.done (.error e)) w')
    (he : e.isSession = true) :
    (¬ c.Misfit settings w.store r ∧ w'.store.row? sid = some r ∧ w'.deliveries = w.deliveries) ∨
      (c.Misfit settings w.store r ∧ ∃ t, c = .text t ∧ w.Trace sid r t w') := by
  have hw := h.sound
  obtain ⟨r', told, hfails, hholds, htold⟩ := (Command.course_always settings c hw hr).leads hl
  have hrow : w'.store.row? sid = some r' := hholds.2
  have htold : w'.deliveries = w.deliveries ++ told := htold fun _ _ hb => hb.deliveries
  cases hfails with
  | unreadable hx =>
    rw [SessionRow.isSession_of_toSession hx] at he
    cases he
  | refused hx href =>
    exact .inl ⟨href.not_misfit hx, hrow, by rw [htold, List.append_nil]⟩
  | lacking hs hlacks =>
    -- only the live version can be missing, which is no refusal
    obtain ⟨f, hf, hx⟩ := (hw.sessions sid r hr).session hs.1
    have hlive := hlacks.live hx hf
    rw [hx.flow] at hlive
    rw [hw.liveFlow_error hf.flow hlive] at he
    cases he
  | @misfit s s' p _ _ _ node reply n hs hp hb hst hn ha _ =>
    obtain ⟨f, hf, hx⟩ := (hw.sessions sid r hr).session hs.1
    obtain ⟨hmisfit, t, hc, hsaid⟩ := hp.misfit hs hx hf hw.keepsLive hst hn ha
    have hid : s.id = sid := (SessionRow.toSession_eq_ok hs.1).1.trans (Store.id_of_row? hr)
    have hsession := hp.session_of_said hsaid
    refine .inr ⟨hmisfit, t, hc, ?_⟩
    cases hb with
    | silent hnone =>
      rw [hnone] at hsaid
      cases hsaid
    | said hsaid' id now =>
      obtain rfl := Option.some.inj (hsaid'.symm.trans hsaid)
      rw [hsession] at hrow htold
      rw [hid] at htold
      exact ⟨s, id, now, hs.1, hrow, htold⟩

/-- **Refused commands.** A refused command leaves the session as it was and tells the chat backend
nothing exactly if it is no text that does not fit. -/
theorem Reached.refused_iff (h : Reached w) (hr : w.store.row? sid = some r)
    (hl : Leads Idle (fun _ => True) (Command.handle settings sid c).run w (.done (.error e)) w')
    (he : e.isSession = true) :
    (w'.store.row? sid = some r ∧ w'.deliveries = w.deliveries) ↔
      ¬ c.Misfit settings w.store r := by
  rcases h.refused hr hl he with ⟨hn, hrow, hd⟩ | ⟨hm, t, -, s, id, now, -, -, hd⟩
  · exact iff_of_true ⟨hrow, hd⟩ hn
  · refine iff_of_false (fun hsame => ?_) (not_not_intro hm)
    rw [hsame.2, List.self_eq_append_right] at hd
    cases hd

/-- A text is refused by the session whose flow was drawn anew, and leaves a trace. -/
theorem exists_refused : ∃ r e w', retold.store.row? "s1" = some r ∧
    Leads Idle (fun _ => True) (Command.handle .default "s1" (.text "x")).run retold
      (.done (.error e)) w' ∧
    e.isSession = true ∧ w'.deliveries ≠ retold.deliveries := by
  obtain ⟨r, hr, -⟩ := exists_retold
  obtain ⟨-, hrefusal, hlength⟩ := retold_refuses
  have hl := leads_doing retold (Command.handle .default "s1" (.text "x")).run
  rw [doing] at hl
  generalize retold.perform .unreachable (Command.handle .default "s1" (.text "x")).run = answered
    at hl hrefusal hlength
  obtain ⟨w', o⟩ := answered
  cases o with
  | ok rep => cases hrefusal
  | error e =>
    refine ⟨r, e, w', hr, hl, hrefusal, fun h => ?_⟩
    have hlength : w'.deliveries.length = retold.deliveries.length + 1 := hlength
    rw [h] at hlength
    omega

/-- **A refused command that leaves a trace**, in a reached world. -/
theorem traced_retold : ∃ r e w', Reached retold ∧ retold.store.row? "s1" = some r ∧
    Leads Idle (fun _ => True) (Command.handle .default "s1" (.text "x")).run retold
      (.done (.error e)) w' ∧
    e.isSession = true ∧ ¬ (w'.store.row? "s1" = some r ∧ w'.deliveries = retold.deliveries) := by
  obtain ⟨r, e, w', hr, hl, he, hd⟩ := exists_refused
  exact ⟨r, e, w', reached_retold, hr, hl, he, fun h => hd h.2⟩

/-- The text is one that does not fit. -/
theorem refused_iff_retold : ∃ r e w', Reached retold ∧ retold.store.row? "s1" = some r ∧
    Leads Idle (fun _ => True) (Command.handle .default "s1" (.text "x")).run retold
      (.done (.error e)) w' ∧
    e.isSession = true ∧ Command.Misfit .default retold.store r (.text "x") := by
  obtain ⟨r, e, w', hr, hl, he, hd⟩ := exists_refused
  have hiff := reached_retold.refused_iff hr hl he
  refine ⟨r, e, w', reached_retold, hr, hl, he, ?_⟩
  exact Classical.byContradiction fun hn => hd (hiff.mpr hn).2

end World

end Dialogue
